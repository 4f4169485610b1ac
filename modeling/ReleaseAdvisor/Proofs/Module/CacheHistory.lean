import Mathlib.Data.List.Induction
import ReleaseAdvisor.Proofs.Module.Resolution

/-!
# Runs of the cache

A run mixes changes of the files with operations of the cache, in any order and on any paths. What
the cache shows for a path after a run is settled by the last event that reloads or invalidates
that path, in any spelling: it is the reading of the file as it was then, and nothing if the file
could not be read then or the entry was invalidated. Later changes of the file do not show, and an
earlier reading never comes back.

The induction is on the run from its end, because the last event decides; its invariant speaks of
a run from any cache, which is what shows where nothing in the run settles the path.
-/

namespace ReleaseAdvisor

/-- A step of a run: a change of the files, or an operation of the cache. -/
inductive CacheEvent where
  | write (path : Path) (content : FileContent)
  | makeDirectory (path : Path)
  | remove (path : Path)
  | reload (path : Path)
  | get (path : Path)
  | invalidate (path : Path)

inductive CacheAnswer where
  | done
  | reloaded (reading : Except ConfigError LegacySource)
  | shown (source? : Option LegacySource)
  | invalidated (existed : Bool)
  deriving DecidableEq

structure Workspace where
  tree : FileTree
  cache : LegacyCache

/-- Whether an event settles what the cache shows for a path. -/
def CacheEvent.settles : CacheEvent → Path → Bool
  | .reload place, path | .invalidate place, path => place.same path
  | _, _ => false

namespace Workspace

def files (workspace : Workspace) : FileSystem :=
  workspace.tree.toFileSystem

def step (workspace : Workspace) : CacheEvent → CacheAnswer × Workspace
  | .write path content => (.done, { workspace with tree := workspace.tree.write path content })
  | .makeDirectory path => (.done, { workspace with tree := workspace.tree.makeDirectory path })
  | .remove path => (.done, { workspace with tree := workspace.tree.remove path })
  | .reload path =>
      let (reading, cache) := workspace.cache.reload workspace.files path
      (.reloaded reading, { workspace with cache })
  | .get path => (.shown (workspace.cache.get? path), workspace)
  | .invalidate path =>
      let (existed, cache) := workspace.cache.invalidate path
      (.invalidated existed, { workspace with cache })

def run (workspace : Workspace) (events : List CacheEvent) : Workspace :=
  events.foldl (fun reached event => (reached.step event).2) workspace

@[simp]
theorem run_nil (workspace : Workspace) : workspace.run [] = workspace :=
  rfl

theorem run_append_singleton (workspace : Workspace) (events : List CacheEvent)
    (event : CacheEvent) :
    workspace.run (events ++ [event]) = ((workspace.run events).step event).2 := by
  simp [run]

theorem get?_step_of_not_settles (workspace : Workspace) {event : CacheEvent} {path : Path}
    (unsettled : event.settles path = false) :
    (workspace.step event).2.cache.get? path = workspace.cache.get? path := by
  cases event with
  | write place content => rfl
  | makeDirectory place => rfl
  | remove place => rfl
  | reload place =>
      simp only [CacheEvent.settles] at unsettled
      simp [step, unsettled]
  | get place => rfl
  | invalidate place =>
      simp only [CacheEvent.settles] at unsettled
      simp [step, LegacyCache.invalidate, unsettled]

theorem get?_step_of_settles (workspace : Workspace) {event : CacheEvent} {path : Path}
    {source : LegacySource} (settled : event.settles path) :
    (workspace.step event).2.cache.get? path = some source ↔
      ∃ place, event = .reload place ∧ LegacySource.read workspace.files place = .ok source := by
  cases event with
  | write place content => contradiction
  | makeDirectory place => contradiction
  | remove place => contradiction
  | get place => contradiction
  | reload place =>
      simp only [CacheEvent.settles] at settled
      simp only [step, LegacyCache.get?_reload, settled, if_true, CacheEvent.reload.injEq]
      cases read : LegacySource.read workspace.files place with
      | ok reading => simp [read, Except.toOption]
      | error error => simp [read, Except.toOption]
  | invalidate place =>
      simp only [CacheEvent.settles] at settled
      simp [step, LegacyCache.invalidate, settled]

/-- The last event of a run that settles a path is a reload that could read the file as it was at
that point of the run, and this is what it read. -/
def LastReloaded (start : Workspace) (events : List CacheEvent) (path : Path)
    (source : LegacySource) : Prop :=
  ∃ before place later, events = before ++ .reload place :: later ∧ place.same path ∧
    (∀ event ∈ later, event.settles path = false) ∧
    LegacySource.read (start.run before).files place = .ok source

theorem lastReloaded_append_of_not_settles {start : Workspace} {events : List CacheEvent}
    {event : CacheEvent} {path : Path} {source : LegacySource}
    (unsettled : event.settles path = false) :
    LastReloaded start (events ++ [event]) path source ↔
      LastReloaded start events path source := by
  constructor
  · rintro ⟨before, place, later, split, same, unsettledLater, read⟩
    rcases List.eq_nil_or_concat later with rfl | ⟨earlier, last, rfl⟩
    · -- The reload would be the new event, but that one does not settle the path.
      rcases List.append_inj' split rfl with ⟨_, last⟩
      simp only [List.cons.injEq, and_true] at last
      rw [last] at unsettled
      simp [CacheEvent.settles, same] at unsettled
    · have split' : events ++ [event] = (before ++ .reload place :: earlier) ++ [last] := by
        simpa using split
      rcases List.append_inj' split' rfl with ⟨split, _⟩
      refine ⟨before, place, earlier, split, same, ?_, read⟩
      intro other otherMem
      exact unsettledLater other (by simp [otherMem])
  · rintro ⟨before, place, later, rfl, same, unsettledLater, read⟩
    refine ⟨before, place, later ++ [event], by simp, same, ?_, read⟩
    intro other otherMem
    rcases List.mem_append.mp otherMem with laterMem | isLast
    · exact unsettledLater other laterMem
    · rw [List.mem_singleton.mp isLast, unsettled]

theorem lastReloaded_append_of_settles {start : Workspace} {events : List CacheEvent}
    {event : CacheEvent} {path : Path} {source : LegacySource}
    (settled : event.settles path) :
    LastReloaded start (events ++ [event]) path source ↔
      ∃ place, event = .reload place ∧
        LegacySource.read (start.run events).files place = .ok source := by
  constructor
  · rintro ⟨before, place, later, split, _, unsettledLater, read⟩
    rcases List.eq_nil_or_concat later with rfl | ⟨earlier, last, rfl⟩
    · rcases List.append_inj' split rfl with ⟨rfl, last⟩
      simp only [List.cons.injEq, and_true] at last
      exact ⟨place, last, read⟩
    · have split' : events ++ [event] = (before ++ .reload place :: earlier) ++ [last] := by
        simpa using split
      rcases List.append_inj' split' rfl with ⟨_, isLast⟩
      simp only [List.cons.injEq, and_true] at isLast
      rw [isLast, unsettledLater last (by simp)] at settled
      contradiction
  · rintro ⟨place, rfl, read⟩
    exact ⟨events, place, [], rfl, settled, by simp, read⟩

/-- What the cache shows after a run from any cache. -/
theorem get?_run (start : Workspace) (events : List CacheEvent) (path : Path)
    (source : LegacySource) :
    (start.run events).cache.get? path = some source ↔
      LastReloaded start events path source ∨
        (∀ event ∈ events, event.settles path = false) ∧ start.cache.get? path = some source := by
  induction events using List.reverseRecOn with
  | nil => simp [LastReloaded]
  | append_singleton events event ih =>
      rw [run_append_singleton]
      cases settled : event.settles path with
      | true =>
          rw [get?_step_of_settles _ settled, lastReloaded_append_of_settles settled,
            or_iff_left]
          rintro ⟨unsettled, _⟩
          rw [unsettled event (by simp)] at settled
          contradiction
      | false =>
          rw [get?_step_of_not_settles _ settled, ih, lastReloaded_append_of_not_settles settled]
          simp [settled, or_imp, forall_and]

/-- After every run that starts with an empty cache, the cache shows for a path what the last event
that settles the path has read, and nothing if that event did not read anything. Reloading answers
from the file as it is, whatever the cache holds; invalidating tells whether there was a reading;
and an event leaves the paths that it does not settle alone. So a directory resolves as it would
with a fresh cache. -/
theorem cache_shows_last_reload (tree : FileTree) (events : List CacheEvent) :
    let reached := run ⟨tree, .empty⟩ events
    (∀ path source, (reached.step (.get path)).1 = .shown (some source) ↔
      LastReloaded ⟨tree, .empty⟩ events path source) ∧
    (∀ path cache, ({ reached with cache }.step (.reload path)).1 =
      .reloaded (LegacySource.read reached.files path)) ∧
    (∀ path, (reached.step (.invalidate path)).1 = .invalidated true ↔
      ∃ source, (reached.step (.get path)).1 = .shown (some source)) ∧
    (∀ event path, event.settles path = false →
      (reached.step event).2.cache.get? path = reached.cache.get? path) ∧
    (∀ settings directory,
      (Module.resolve reached.files settings reached.cache directory).1 =
        (Module.resolve reached.files settings .empty directory).1) := by
  intro reached
  refine ⟨?_, ?_, ?_, ?_, ?_⟩
  · intro path source
    simp only [step, CacheAnswer.shown.injEq]
    rw [get?_run]
    simp
  · intro path cache
    simp [step, files]
  · intro path
    simp [step, LegacyCache.invalidate, Option.isSome_iff_exists]
  · intro event path unsettled
    exact get?_step_of_not_settles reached unsettled
  · intro settings directory
    exact Module.resolve_fst_eq reached.files settings reached.cache .empty directory

/-- A reading shows under every spelling of its path although the file has been broken since, and
invalidating another document leaves it there. -/
theorem cache_shows_last_reload_broken_since :
    let document : Path := ⟨"m/.releaserc.json"⟩
    let event := CacheEvent.invalidate ⟨"n/.releaserc.json"⟩
    let reached := run ⟨.empty, .empty⟩ [.write document (.text "[null]"),
      .reload ⟨"m//./.releaserc.json"⟩, .write document (.text "[")]
    (reached.step (.invalidate document)).1 = .invalidated true ∧
      event.settles document = false ∧
      (reached.step event).2.cache.get? document = reached.cache.get? document := by
  intro document event reached
  have shows := cache_shows_last_reload .empty [.write document (.text "[null]"),
    .reload ⟨"m//./.releaserc.json"⟩, .write document (.text "[")]
  have unsettled : event.settles document = false := by
    decide
  have shown : (reached.step (.get document)).1 = .shown (some ⟨none, .ofRules []⟩) := by
    decide
  refine ⟨?_, unsettled, ?_⟩
  · exact (shows.2.2.1 document).mpr ⟨_, shown⟩
  · exact shows.2.2.2.1 event document unsettled

end Workspace

end ReleaseAdvisor
