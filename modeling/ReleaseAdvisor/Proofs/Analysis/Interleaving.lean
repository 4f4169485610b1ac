import Mathlib.Logic.Function.Basic
import ReleaseAdvisor.Analysis.Report
import ReleaseAdvisor.Proofs.Module.Resolution

/-!
# Analysing modules side by side

The directories of an analysis are jobs that share one cache. A job that needs its legacy document
forgets the entry, reads the file and keeps the reading, and each of these is a step of its own:
between any two of them other jobs may take steps, also on the same document. A schedule says whose
turn it is, and a turn of a job that has finished, or of none, changes nothing.

A job that takes its steps alone resolves its directory. After four turns every job has finished,
whatever happens between them.
-/

namespace ReleaseAdvisor

/-- How far a job has come. -/
inductive Job.Stage where
  | waiting
  | forgetting
  | reading
  | keeping (source : LegacySource)
  | finished (result : Except ConfigError Module)

/-- The resolution of one directory, on its way. -/
structure Job where
  directory : Path
  stage : Job.Stage

namespace Job

def Stage.remaining : Stage → Nat
  | .waiting => 4
  | .forgetting => 3
  | .reading => 2
  | .keeping _ => 1
  | .finished _ => 0

def Stage.result? : Stage → Option (Except ConfigError Module)
  | .finished result => some result
  | _ => none

/-- One step of a job on the cache that it shares. -/
def step (files : FileSystem) (settings : Settings) (job : Job) (cache : LegacyCache) :
    Job × LegacyCache :=
  match job.stage with
  | .waiting =>
      if files.isFile (settings.descriptorPath job.directory) then
        ({ job with stage := .finished (Module.ofDescriptor files settings job.directory) }, cache)
      else if files.isFile (settings.legacyPath job.directory) then
        ({ job with stage := .forgetting }, cache)
      else ({ job with stage := .finished (.error (.noConfiguration job.directory)) }, cache)
  | .forgetting =>
      ({ job with stage := .reading }, (cache.invalidate (settings.legacyPath job.directory)).2)
  | .reading =>
      match LegacySource.read files (settings.legacyPath job.directory) with
      | .ok source => ({ job with stage := .keeping source }, cache)
      | .error error => ({ job with stage := .finished (.error error) }, cache)
  | .keeping source =>
      ({ job with stage := .finished (Module.ofLegacy settings job.directory source) },
        cache.keep (settings.legacyPath job.directory) source)
  | .finished _ => (job, cache)

def outcome? (history : List Commit) (job : Job) : Option Outcome :=
  job.stage.result?.map fun result => ⟨job.directory, result.map (·.analyze history)⟩

variable {files : FileSystem} {settings : Settings}

@[simp]
theorem step_directory (job : Job) (cache : LegacyCache) :
    (job.step files settings cache).1.directory = job.directory := by
  unfold step
  split
  · split
    · rfl
    · split <;> rfl
  · rfl
  · split <;> rfl
  · rfl
  · rfl

theorem remaining_step_le (files : FileSystem) (settings : Settings) (job : Job)
    (cache : LegacyCache) :
    (job.step files settings cache).1.stage.remaining ≤ job.stage.remaining - 1 := by
  unfold step
  split
  · rename_i waiting
    rw [waiting]
    split
    · exact Nat.zero_le _
    · split
      · exact Nat.le_refl _
      · exact Nat.zero_le _
  · rename_i forgetting
    rw [forgetting]
    exact Nat.le_refl _
  · rename_i reading
    rw [reading]
    split
    · exact Nat.le_refl _
    · exact Nat.zero_le _
  · exact Nat.zero_le _
  · rename_i finished
    simp [finished, Stage.remaining]

theorem exists_result_of_remaining_eq_zero {stage : Stage} (done : stage.remaining = 0) :
    ∃ result, stage = .finished result := by
  cases stage with
  | finished result => exact ⟨result, rfl⟩
  | waiting => contradiction
  | forgetting => contradiction
  | reading => contradiction
  | keeping source => contradiction

/-- Four steps of a job that runs alone are the resolution of its directory. -/
theorem iterate_step_eq_resolve (directory : Path) (cache : LegacyCache) :
    (fun reached : Job × LegacyCache => reached.1.step files settings reached.2)^[4]
        (⟨directory, .waiting⟩, cache) =
      (⟨directory, .finished (Module.resolve files settings cache directory).1⟩,
        (Module.resolve files settings cache directory).2) := by
  simp only [Function.iterate_succ, Function.iterate_zero, Function.comp_apply, id_eq]
  cases described : files.isFile (settings.descriptorPath directory) with
  | true => simp [step, described, Module.resolve_of_descriptor described]
  | false =>
      cases documented : files.isFile (settings.legacyPath directory) with
      | false => simp [step, described, documented, Module.resolve_of_neither described documented]
      | true =>
          cases read : LegacySource.read files (settings.legacyPath directory) with
          | error error =>
              simp [step, described, documented, read, Except.bind, LegacyCache.invalidate,
                LegacyCache.reload, Module.resolve_of_legacy described documented]
          | ok source =>
              simp [step, described, documented, read, Except.bind, LegacyCache.invalidate,
                LegacyCache.reload, Module.resolve_of_legacy described documented]

end Job

/-- Jobs that share a cache. -/
structure Pool where
  jobs : List Job
  cache : LegacyCache

namespace Pool

def start (cache : LegacyCache) (directories : List Path) : Pool :=
  ⟨directories.map fun directory => ⟨directory, .waiting⟩, cache⟩

/-- Gives a turn to the job at a position. -/
def step (files : FileSystem) (settings : Settings) (pool : Pool) (turn : Nat) : Pool :=
  match pool.jobs[turn]? with
  | none => pool
  | some job =>
      let (job, cache) := job.step files settings pool.cache
      ⟨pool.jobs.set turn job, cache⟩

def run (files : FileSystem) (settings : Settings) (pool : Pool) (schedule : List Nat) : Pool :=
  schedule.foldl (step files settings) pool

def Complete (pool : Pool) : Prop :=
  ∀ job ∈ pool.jobs, job.stage.remaining = 0

instance (pool : Pool) : Decidable pool.Complete :=
  inferInstanceAs (Decidable (∀ job ∈ pool.jobs, job.stage.remaining = 0))

def outcomes? (history : List Commit) (pool : Pool) : Option (List Outcome) :=
  pool.jobs.mapM (·.outcome? history)

variable {files : FileSystem} {settings : Settings}

theorem run_append (pool : Pool) (schedule further : List Nat) :
    pool.run files settings (schedule ++ further) =
      (pool.run files settings schedule).run files settings further := by
  simp [run]

theorem step_of_none {pool : Pool} {turn : Nat} (vacant : pool.jobs[turn]? = none) :
    pool.step files settings turn = pool := by
  simp [step, vacant]

theorem step_of_some {pool : Pool} {turn : Nat} {job : Job}
    (present : pool.jobs[turn]? = some job) :
    pool.step files settings turn =
      ⟨pool.jobs.set turn (job.step files settings pool.cache).1,
        (job.step files settings pool.cache).2⟩ := by
  simp [step, present]

@[simp]
theorem directories_step (pool : Pool) (turn : Nat) :
    (pool.step files settings turn).jobs.map (·.directory) = pool.jobs.map (·.directory) := by
  cases present : pool.jobs[turn]? with
  | none => rw [step_of_none present]
  | some job =>
      have inPlace : (pool.jobs.map (·.directory))[turn]? = some job.directory := by
        simp [present]
      rcases List.getElem?_eq_some_iff.mp inPlace with ⟨inside, isDirectory⟩
      rw [step_of_some present, List.map_set, Job.step_directory, ← isDirectory,
        List.set_getElem_self]

/-- The turns that a job gets bring it to its end, whatever the other jobs do in between. -/
theorem remaining_run_le (pool : Pool) (schedule : List Nat) {turn : Nat} {before after : Job}
    (presentBefore : pool.jobs[turn]? = some before)
    (presentAfter : (pool.run files settings schedule).jobs[turn]? = some after) :
    after.stage.remaining ≤ before.stage.remaining - schedule.count turn := by
  induction schedule generalizing pool before with
  | nil =>
      simp only [run, List.foldl_nil, presentBefore, Option.some.injEq] at presentAfter
      simp [presentAfter]
  | cons first rest ih =>
      by_cases own : first = turn
      · subst own
        have advanced := Job.remaining_step_le files settings before pool.cache
        have present : (pool.step files settings first).jobs[first]? =
            some (before.step files settings pool.cache).1 := by
          rw [step_of_some presentBefore]
          exact List.getElem?_set_self (List.getElem?_eq_some_iff.mp presentBefore).1
        have final := ih _ present presentAfter
        rw [List.count_cons_self]
        omega
      · have unmoved : (pool.step files settings first).jobs[turn]? = some before := by
          cases present : pool.jobs[first]? with
          | none => rw [step_of_none present, presentBefore]
          | some job => rw [step_of_some present, List.getElem?_set_ne own, presentBefore]
        have final := ih _ unmoved presentAfter
        rwa [List.count_cons_of_ne own]

theorem run_replicate {pool : Pool} {turn : Nat} {job : Job}
    (present : pool.jobs[turn]? = some job) (count : Nat) :
    pool.run files settings (List.replicate count turn) =
      let reached := (fun reached : Job × LegacyCache =>
        reached.1.step files settings reached.2)^[count] (job, pool.cache)
      ⟨pool.jobs.set turn reached.1, reached.2⟩ := by
  rcases List.getElem?_eq_some_iff.mp present with ⟨inside, isJob⟩
  induction count generalizing pool job with
  | zero =>
      simp only [run, List.replicate_zero, List.foldl_nil, Function.iterate_zero, id_eq]
      rw [← isJob, List.set_getElem_self]
  | succ count ih =>
      have stepped : (pool.step files settings turn).jobs[turn]? =
          some (job.step files settings pool.cache).1 := by
        rw [step_of_some present]
        exact List.getElem?_set_self inside
      rcases List.getElem?_eq_some_iff.mp stepped with ⟨stillInside, isStepped⟩
      have following := ih stepped stillInside isStepped
      simp only [run, List.replicate_succ, List.foldl_cons, Function.iterate_succ,
        Function.comp_apply] at following ⊢
      rw [following, step_of_some present]
      simp

theorem run_alone {pool : Pool} {turn : Nat} {directory : Path}
    (present : pool.jobs[turn]? = some ⟨directory, .waiting⟩) :
    pool.run files settings (List.replicate 4 turn) =
      ⟨pool.jobs.set turn
          ⟨directory, .finished (Module.resolve files settings pool.cache directory).1⟩,
        (Module.resolve files settings pool.cache directory).2⟩ := by
  rw [run_replicate present, Job.iterate_step_eq_resolve]

/-- The schedule that brings each job to its end before the next one begins. -/
def inTurn (count : Nat) : List Nat :=
  (List.range count).flatMap (List.replicate 4)

theorem run_finished_append (history : List Commit) (done : List Job) (cache : LegacyCache)
    (directories : List Path) :
    run files settings ⟨done ++ directories.map fun directory => ⟨directory, .waiting⟩, cache⟩
        ((List.range' done.length directories.length).flatMap (List.replicate 4)) =
      ⟨done ++ directories.map fun directory =>
          ⟨directory, .finished (Module.resolve files settings .empty directory).1⟩,
        (Module.analyzeAll files settings history cache directories).2⟩ := by
  induction directories generalizing done cache with
  | nil => rfl
  | cons directory rest ih =>
      have present : (done ++ (directory :: rest).map fun directory =>
          (⟨directory, .waiting⟩ : Job))[done.length]? = some ⟨directory, .waiting⟩ := by
        simp
      -- The job that finishes joins those that are done, so the others start one place further.
      have following := ih (done ++ [⟨directory,
        .finished (Module.resolve files settings .empty directory).1⟩])
        (Module.resolve files settings cache directory).2
      simp only [List.length_append, List.length_singleton] at following
      simp only [List.length_cons, List.range'_succ, List.flatMap_cons, Module.analyzeAll,
        Module.outcome]
      rw [run_append, run_alone present, Module.resolve_fst_eq files settings cache .empty]
      simpa [List.set_append] using following

/-- One directory after the other is one of the schedules. -/
theorem run_inTurn (history : List Commit) (cache : LegacyCache) (directories : List Path) :
    (start cache directories).run files settings (inTurn directories.length) =
      ⟨directories.map fun directory =>
          ⟨directory, .finished (Module.resolve files settings .empty directory).1⟩,
        (Module.analyzeAll files settings history cache directories).2⟩ := by
  rw [inTurn, List.range_eq_range']
  exact run_finished_append history [] cache directories

end Pool

end ReleaseAdvisor
