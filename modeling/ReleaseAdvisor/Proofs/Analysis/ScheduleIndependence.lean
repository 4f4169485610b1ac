import ReleaseAdvisor.Proofs.Analysis.Interleaving

/-!
# Independence of the schedule

However the steps of an analysis interleave, its outcomes and what the cache shows at the end are
the same.

Results are the easier half: they never depend on the cache, so each job carries its own proof that
it is on the way to what its directory resolves to. For the cache we look at one path at a time. A
job that reloads it is untouched by the path until it forgets the entry, then reloads it, and is
settled once it has kept its reading or failed. The invariant is that the entry is the first one as
long as all jobs are untouched, and afterwards it is the reading of the file, or missing while some
job is still reloading. So a missing entry is always repaired by the job that will keep the reading
last.

All jobs that reload a path read the same, although they may spell it differently. This is where
the files have to be coherent.
-/

namespace ReleaseAdvisor

/-- How far a job has come with the entry of one path. -/
inductive Job.Phase where
  | untouched
  | reloading
  | settled
  deriving DecidableEq

namespace Job

/-- What a job can do to the entry of a path, given the reading of the file: the phase and the
entry before, and the phase and the entry after. -/
inductive Move (reading : Option LegacySource) :
    Phase → Option LegacySource → Phase → Option LegacySource → Prop where
  | stay (phase : Phase) (entry : Option LegacySource) : Move reading phase entry phase entry
  | forget (entry : Option LegacySource) : Move reading .untouched entry .reloading none
  | keep (entry : Option LegacySource) : Move reading .reloading entry .settled reading
  | fail (entry : Option LegacySource) (unread : reading = none) :
      Move reading .reloading entry .settled entry

/-- What an entry may be while the jobs are in some phases. -/
def Repaired (first reading : Option LegacySource) (phases : Nat → Phase)
    (entry : Option LegacySource) : Prop :=
  (∀ turn, phases turn = .untouched) ∧ entry = first ∨
    (∃ turn, phases turn ≠ .untouched) ∧
      (entry = reading ∨ entry = none ∧ ∃ turn, phases turn = .reloading)

theorem Repaired.move {first reading entry entryAfter : Option LegacySource}
    {phases : Nat → Phase} {phaseAfter : Phase} {turn : Nat}
    (repaired : Repaired first reading phases entry)
    (move : Move reading (phases turn) entry phaseAfter entryAfter) :
    Repaired first reading (Function.update phases turn phaseAfter) entryAfter := by
  generalize current : phases turn = phase at move
  cases move with
  | stay =>
      rw [← current, Function.update_eq_self]
      exact repaired
  | forget =>
      right
      exact ⟨⟨turn, by simp⟩, Or.inr ⟨rfl, turn, by simp⟩⟩
  | keep =>
      right
      exact ⟨⟨turn, by simp⟩, Or.inl rfl⟩
  | fail _ unread =>
      right
      refine ⟨⟨turn, by simp⟩, Or.inl ?_⟩
      rcases repaired with ⟨untouched, _⟩ | ⟨_, isReading | ⟨missing, _⟩⟩
      · rw [untouched turn] at current
        contradiction
      · exact isReading
      · -- The entry is missing, and that is right, because the file cannot be read.
        rw [missing, unread]

def Stage.phase : Stage → Phase
  | .waiting | .forgetting => .untouched
  | .reading | .keeping _ => .reloading
  | .finished _ => .settled

/-- How far a job is with the entry of a path; one that does not reload it never touches it. -/
def phase (files : FileSystem) (settings : Settings) (path : Path) (job : Job) : Phase :=
  if Module.reloads files settings job.directory path then job.stage.phase else .untouched

/-- The job is on the way to what its directory resolves to. -/
def Sound (files : FileSystem) (settings : Settings) (job : Job) : Prop :=
  match job.stage with
  | .waiting => True
  | .forgetting | .reading =>
      files.isFile (settings.descriptorPath job.directory) = false ∧
        files.isFile (settings.legacyPath job.directory)
  | .keeping source =>
      (files.isFile (settings.descriptorPath job.directory) = false ∧
        files.isFile (settings.legacyPath job.directory)) ∧
      LegacySource.read files (settings.legacyPath job.directory) = .ok source
  | .finished result => result = (Module.resolve files settings .empty job.directory).1

variable {files : FileSystem} {settings : Settings}

theorem Sound.step {job : Job} (sound : job.Sound files settings) (cache : LegacyCache) :
    (job.step files settings cache).1.Sound files settings := by
  rcases job with ⟨directory, stage⟩
  cases stage with
  | waiting =>
      cases described : files.isFile (settings.descriptorPath directory) with
      | true => simp [Job.step, Sound, described, Module.resolve_of_descriptor described]
      | false =>
          cases documented : files.isFile (settings.legacyPath directory) with
          | true => simp [Job.step, Sound, described, documented]
          | false =>
              simp [Job.step, Sound, described, documented,
                Module.resolve_of_neither described documented]
  | forgetting => exact sound
  | reading =>
      rcases sound with ⟨undescribed, documented⟩
      cases read : LegacySource.read files (settings.legacyPath directory) with
      | ok source => simp [Job.step, Sound, read, undescribed, documented]
      | error error =>
          simp [Job.step, Sound, read, Except.bind,
            Module.resolve_of_legacy undescribed documented]
  | keeping source =>
      rcases sound with ⟨⟨undescribed, documented⟩, read⟩
      simp [Job.step, Sound, read, Except.bind, Module.resolve_of_legacy undescribed documented]
  | finished result => exact sound

/-- A job with another document touches the cache, but not where the path is kept. -/
theorem Sound.get?_step_of_not_reloads {job : Job} (sound : job.Sound files settings)
    (cache : LegacyCache) {path : Path}
    (unread : Module.reloads files settings job.directory path = false) :
    (job.step files settings cache).2.get? path = cache.get? path := by
  rcases job with ⟨directory, stage⟩
  have elsewhere : files.isFile (settings.descriptorPath directory) = false ∧
      files.isFile (settings.legacyPath directory) →
      (settings.legacyPath directory).same path = false := by
    intro legacy
    by_contra same
    rw [Module.reloads_iff.mpr ⟨legacy, by simpa using same⟩] at unread
    contradiction
  cases stage with
  | waiting =>
      simp only [Job.step]
      split
      · rfl
      · split <;> rfl
  | forgetting => simp [Job.step, LegacyCache.invalidate, elsewhere sound]
  | reading =>
      simp only [Job.step]
      split <;> rfl
  | keeping source => simp [Job.step, elsewhere sound.1]
  | finished result => rfl

theorem Sound.move {job : Job} (sound : job.Sound files settings) (cache : LegacyCache)
    {path : Path} {reading : Option LegacySource}
    (reads : Module.reloads files settings job.directory path →
      (LegacySource.read files (settings.legacyPath job.directory)).toOption = reading) :
    Move reading (job.phase files settings path) (cache.get? path)
      ((job.step files settings cache).1.phase files settings path)
      ((job.step files settings cache).2.get? path) := by
  cases reloads : Module.reloads files settings job.directory path with
  | false =>
      rw [sound.get?_step_of_not_reloads cache reloads]
      simp only [phase, step_directory, reloads, Bool.false_eq_true, if_false]
      exact .stay _ _
  | true =>
      rcases job with ⟨directory, stage⟩
      rcases Module.reloads_iff.mp reloads with ⟨⟨undescribed, documented⟩, same⟩
      have reads := reads reloads
      simp only [phase, step_directory, reloads, if_true]
      cases stage with
      | waiting =>
          simp only [Job.step, undescribed, documented, Bool.false_eq_true, if_false, if_true]
          exact .stay _ _
      | forgetting =>
          simp only [Job.step, LegacyCache.invalidate, LegacyCache.get?_forget, same, if_true]
          exact .forget _
      | reading =>
          cases read : LegacySource.read files (settings.legacyPath directory) with
          | ok source =>
              simp only [Job.step, read]
              exact .stay _ _
          | error error =>
              simp only [Job.step, read]
              rw [read] at reads
              exact .fail _ reads.symm
      | keeping source =>
          simp only [Job.step, LegacyCache.get?_keep, same, if_true]
          rw [sound.2] at reads
          rw [← reads]
          exact .keep _
      | finished result => exact .stay _ _

theorem Sound.outcome?_eq {job : Job} (sound : job.Sound files settings)
    (done : job.stage.remaining = 0) (history : List Commit) :
    job.outcome? history = some (Module.outcome files settings history .empty job.directory).1 := by
  rcases exists_result_of_remaining_eq_zero done with ⟨result, finished⟩
  simp only [Sound, finished] at sound
  simp [outcome?, finished, Stage.result?, Module.outcome, sound]

theorem Stage.phase_of_remaining_eq_zero {stage : Stage} (done : stage.remaining = 0) :
    stage.phase = .settled := by
  rcases exists_result_of_remaining_eq_zero done with ⟨result, rfl⟩
  rfl

end Job

namespace Pool

def phases (files : FileSystem) (settings : Settings) (path : Path) (pool : Pool) (turn : Nat) :
    Job.Phase :=
  (pool.jobs[turn]?.map (·.phase files settings path)).getD .untouched

/-- What holds of a pool at all times: whose jobs they are, that they are sound, and what the cache
shows for a path that all jobs that reload it read alike. -/
structure Invariant (files : FileSystem) (settings : Settings) (directories : List Path)
    (first : LegacyCache) (pool : Pool) : Prop where
  directories_eq : pool.jobs.map (·.directory) = directories
  sound : ∀ job ∈ pool.jobs, job.Sound files settings
  repaired : ∀ path reading,
    (∀ directory ∈ directories, Module.reloads files settings directory path →
      (LegacySource.read files (settings.legacyPath directory)).toOption = reading) →
    Job.Repaired (first.get? path) reading (pool.phases files settings path) (pool.cache.get? path)

variable {files : FileSystem} {settings : Settings} {directories : List Path}
  {first : LegacyCache}

theorem invariant_start (files : FileSystem) (settings : Settings) (directories : List Path)
    (first : LegacyCache) :
    Invariant files settings directories first (start first directories) where
  directories_eq := by
    simp [start, Function.comp_def]
  sound := by
    intro job jobMem
    rcases List.mem_map.mp jobMem with ⟨directory, _, rfl⟩
    trivial
  repaired := by
    intro path reading _
    left
    refine ⟨?_, rfl⟩
    intro turn
    cases present : directories[turn]? with
    | none => simp [phases, start, present]
    | some directory => simp [phases, start, present, Job.phase, Job.Stage.phase]

theorem phases_set {pool : Pool} {turn : Nat} (inside : turn < pool.jobs.length) (job : Job)
    (cache : LegacyCache) (path : Path) :
    phases files settings path ⟨pool.jobs.set turn job, cache⟩ =
      Function.update (pool.phases files settings path) turn (job.phase files settings path) := by
  funext other
  by_cases own : other = turn
  · subst own
    simp [phases, inside]
  · rw [Function.update_of_ne own]
    simp [phases, List.getElem?_set_ne (Ne.symm own)]

theorem Invariant.step {pool : Pool} (invariant : pool.Invariant files settings directories first)
    (turn : Nat) :
    (pool.step files settings turn).Invariant files settings directories first := by
  cases present : pool.jobs[turn]? with
  | none =>
      rw [step_of_none present]
      exact invariant
  | some job =>
      have jobMem : job ∈ pool.jobs := List.mem_of_getElem? present
      have inside : turn < pool.jobs.length := (List.getElem?_eq_some_iff.mp present).1
      have sound := invariant.sound job jobMem
      refine ⟨?_, ?_, ?_⟩
      · rw [directories_step, invariant.directories_eq]
      · rw [step_of_some present]
        intro other otherMem
        rcases List.mem_or_eq_of_mem_set otherMem with old | rfl
        · exact invariant.sound other old
        · exact sound.step pool.cache
      · intro path reading reads
        have ownReads := reads job.directory (by
          rw [← invariant.directories_eq]
          exact List.mem_map_of_mem jobMem)
        have ownPhase : pool.phases files settings path turn = job.phase files settings path := by
          simp [phases, present]
        rw [step_of_some present, phases_set inside]
        apply (invariant.repaired path reading reads).move
        rw [ownPhase]
        exact sound.move pool.cache ownReads

theorem Invariant.run {pool : Pool} (invariant : pool.Invariant files settings directories first)
    (schedule : List Nat) :
    (pool.run files settings schedule).Invariant files settings directories first := by
  induction schedule generalizing pool with
  | nil => exact invariant
  | cons turn rest ih => exact ih (invariant.step turn)

theorem complete_run_of_turns {cache : LegacyCache} {schedule : List Nat}
    (turns : ∀ turn < directories.length, 4 ≤ schedule.count turn) :
    ((start cache directories).run files settings schedule).Complete := by
  intro job jobMem
  rcases List.mem_iff_getElem?.mp jobMem with ⟨turn, present⟩
  have reached := (invariant_start files settings directories cache).run schedule
  have among : directories[turn]? = some job.directory := by
    rw [← reached.directories_eq, List.getElem?_map, present]
    rfl
  have begun : (start cache directories).jobs[turn]? = some ⟨job.directory, .waiting⟩ := by
    simp [start, among]
  have remaining := remaining_run_le (start cache directories) schedule begun present
  have given := turns turn (List.getElem?_eq_some_iff.mp among).1
  have needed : Job.Stage.waiting.remaining = 4 := rfl
  simp only [needed] at remaining
  omega

theorem Invariant.outcomes?_eq {pool : Pool}
    (invariant : pool.Invariant files settings directories first) (complete : pool.Complete)
    (history : List Commit) :
    pool.outcomes? history = some
      (directories.map fun directory =>
        (Module.outcome files settings history .empty directory).1) := by
  have outcomes : ∀ jobs ⊆ pool.jobs, jobs.mapM (·.outcome? history) = some
      (jobs.map fun job => (Module.outcome files settings history .empty job.directory).1) := by
    intro jobs inside
    induction jobs with
    | nil => rfl
    | cons job rest ih =>
        rcases List.cons_subset.mp inside with ⟨jobMem, restInside⟩
        rw [List.mapM_cons, ih restInside,
          (invariant.sound job jobMem).outcome?_eq (complete job jobMem) history]
        rfl
  rw [← invariant.directories_eq, List.map_map]
  exact outcomes pool.jobs (List.Subset.refl _)

theorem Invariant.get?_of_reloads {pool : Pool}
    (invariant : pool.Invariant files settings directories first) (complete : pool.Complete)
    (coherent : files.Coherent) {directory path : Path} (directoryMem : directory ∈ directories)
    (reloads : Module.reloads files settings directory path) :
    pool.cache.get? path =
      (LegacySource.read files (settings.legacyPath directory)).toOption := by
  have reads : ∀ other ∈ directories, Module.reloads files settings other path →
      (LegacySource.read files (settings.legacyPath other)).toOption =
        (LegacySource.read files (settings.legacyPath directory)).toOption := by
    intro other _ otherReloads
    exact Module.toOption_read_eq_of_reloads coherent otherReloads reloads
  rcases invariant.repaired path _ reads with ⟨untouched, _⟩ | ⟨_, isReading | ⟨_, turn, reloading⟩⟩
  · rw [← invariant.directories_eq] at directoryMem
    rcases List.mem_map.mp directoryMem with ⟨job, jobMem, rfl⟩
    rcases List.mem_iff_getElem?.mp jobMem with ⟨turn, present⟩
    have settled := untouched turn
    simp [phases, present, Job.phase, reloads,
      Job.Stage.phase_of_remaining_eq_zero (complete job jobMem)] at settled
  · exact isReading
  · cases present : pool.jobs[turn]? with
    | none => simp [phases, present] at reloading
    | some job =>
        have jobMem : job ∈ pool.jobs := List.mem_of_getElem? present
        simp only [phases, present, Option.map_some, Option.getD_some, Job.phase,
          Job.Stage.phase_of_remaining_eq_zero (complete job jobMem)] at reloading
        split at reloading <;> contradiction

theorem Invariant.get?_of_not_reloads {pool : Pool}
    (invariant : pool.Invariant files settings directories first) {path : Path}
    (unread : ∀ directory ∈ directories, Module.reloads files settings directory path = false) :
    pool.cache.get? path = first.get? path := by
  have reads : ∀ directory ∈ directories, Module.reloads files settings directory path →
      (LegacySource.read files (settings.legacyPath directory)).toOption = none := by
    intro directory directoryMem reloads
    rw [unread directory directoryMem] at reloads
    contradiction
  rcases invariant.repaired path none reads with ⟨_, isFirst⟩ | ⟨⟨turn, touched⟩, _⟩
  · exact isFirst
  · cases present : pool.jobs[turn]? with
    | none => simp [phases, present] at touched
    | some job =>
        have among : job.directory ∈ directories := by
          rw [← invariant.directories_eq]
          exact List.mem_map_of_mem (List.mem_of_getElem? present)
        simp [phases, present, Job.phase, unread _ among] at touched

theorem Invariant.get?_eq {pool other : Pool}
    (invariant : pool.Invariant files settings directories first) (complete : pool.Complete)
    (otherInvariant : other.Invariant files settings directories first)
    (otherComplete : other.Complete) (coherent : files.Coherent) (path : Path) :
    pool.cache.get? path = other.cache.get? path := by
  by_cases reloaded : ∃ directory ∈ directories, Module.reloads files settings directory path
  · rcases reloaded with ⟨directory, directoryMem, reloads⟩
    rw [invariant.get?_of_reloads complete coherent directoryMem reloads,
      otherInvariant.get?_of_reloads otherComplete coherent directoryMem reloads]
  · have unread : ∀ directory ∈ directories,
        Module.reloads files settings directory path = false := by
      intro directory directoryMem
      by_contra reloads
      exact reloaded ⟨directory, directoryMem, by simpa using reloads⟩
    rw [invariant.get?_of_not_reloads unread, otherInvariant.get?_of_not_reloads unread]

theorem complete_run_inTurn (cache : LegacyCache) (directories : List Path) :
    ((start cache directories).run files settings (inTurn directories.length)).Complete := by
  rw [run_inTurn []]
  intro job jobMem
  rcases List.mem_map.mp jobMem with ⟨directory, _, rfl⟩
  rfl

/-- Whatever the schedule, an analysis is complete once each job had four turns. Then it has one
outcome for each directory, in their order, which is that of the directory alone with an empty
cache. The cache shows what the file says for every path that was reloaded, nothing if the file
cannot be read, and what it showed before for every other path. All this is as if one directory had
been analysed after the other. Only what the cache shows depends on the files being coherent, as
those of every tree are. -/
theorem outcomes_and_cache_independent_of_schedule (files : FileSystem) (settings : Settings)
    (history : List Commit) (directories : List Path) (cache : LegacyCache)
    (schedule : List Nat) :
    let reached := (start cache directories).run files settings schedule
    ((∀ turn < directories.length, 4 ≤ schedule.count turn) → reached.Complete) ∧
    (reached.Complete →
      reached.outcomes? history = some (directories.map fun directory =>
        (Module.outcome files settings history .empty directory).1) ∧
      reached.outcomes? history =
        some (Module.analyzeAll files settings history cache directories).1 ∧
      (∀ path,
        (∀ directory ∈ directories, Module.reloads files settings directory path = false) →
          reached.cache.get? path = cache.get? path) ∧
      (files.Coherent →
        (∀ directory ∈ directories, ∀ path, Module.reloads files settings directory path →
          reached.cache.get? path =
            (LegacySource.read files (settings.legacyPath directory)).toOption) ∧
        ∀ path, reached.cache.get? path =
          (Module.analyzeAll files settings history cache directories).2.get? path)) := by
  intro reached
  have start := invariant_start files settings directories cache
  have invariant := start.run schedule
  refine ⟨complete_run_of_turns, ?_⟩
  intro complete
  have outcomes := invariant.outcomes?_eq complete history
  refine ⟨outcomes, ?_, ?_, ?_⟩
  · rw [Module.analyzeAll_fst_eq]
    exact outcomes
  · intro path unread
    exact invariant.get?_of_not_reloads unread
  · intro coherent
    constructor
    · intro directory directoryMem path reloads
      exact invariant.get?_of_reloads complete coherent directoryMem reloads
    · intro path
      have oneByOne := invariant.get?_eq complete (start.run (inTurn directories.length))
        (complete_run_inTurn cache directories) coherent path
      rw [run_inTurn history] at oneByOne
      exact oneByOne

/-- Two spellings of one directory take turns on its document, one forgetting what the other has
kept, beside a broken descriptor and a directory without any file. -/
theorem outcomes_and_cache_independent_of_schedule_interleaved :
    let tree := (FileTree.empty.write ⟨"m/.releaserc.json"⟩ (.text "[null]")).write
      ⟨"d/module.toml"⟩ (.text "name =")
    let files := tree.toFileSystem
    let directories : List Path := [⟨"m"⟩, ⟨"d"⟩, ⟨"m//."⟩, ⟨"x"⟩]
    let schedule := [0, 2, 0, 0, 1, 0, 2, 3, 2, 2, 1, 1, 1, 3, 3, 3]
    let reached := (start .empty directories).run files .standard schedule
    ((∀ turn < directories.length, 4 ≤ schedule.count turn) ∧ reached.Complete) ∧
      (files.Coherent ∧ Module.reloads files .standard ⟨"m"⟩ ⟨"m//./.releaserc.json"⟩ ∧
        reached.cache.get? ⟨"m//./.releaserc.json"⟩ = some ⟨none, .ofRules []⟩) ∧
      (∀ directory ∈ directories,
        Module.reloads files .standard directory ⟨"d/.releaserc.json"⟩ = false) ∧
      reached.cache.get? ⟨"d/.releaserc.json"⟩ = none := by
  intro tree files directories schedule reached
  have independent := outcomes_and_cache_independent_of_schedule files .standard [] directories
    .empty schedule
  have turns : ∀ turn < directories.length, 4 ≤ schedule.count turn := by
    decide
  have complete := independent.1 turns
  have coherent : files.Coherent := FileTree.coherent_toFileSystem tree
  have reloads : Module.reloads files .standard ⟨"m"⟩ ⟨"m//./.releaserc.json"⟩ := by
    decide
  have unread : ∀ directory ∈ directories,
      Module.reloads files .standard directory ⟨"d/.releaserc.json"⟩ = false := by
    decide
  refine ⟨⟨turns, complete⟩, ⟨coherent, reloads, ?_⟩, unread, ?_⟩
  · have shown := ((independent.2 complete).2.2.2 coherent).1 ⟨"m"⟩ (by decide) _ reloads
    rw [shown]
    decide
  · exact (independent.2 complete).2.2.1 _ unread

end Pool

end ReleaseAdvisor
