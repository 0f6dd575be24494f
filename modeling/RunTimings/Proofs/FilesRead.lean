import RunTimings.CommandLine.Run
import RunTimings.Proofs.Outcomes

/-! # Files read — what a request asks, and when

    A report is made of answers: those of the directories in which files are
    looked for, and those of the logs that are found there.

    * `Request.report_congr` — two views with the same answers to these questions
      give the same report and the same notes.
    * `run_survey` — asking all of them beforehand changes nothing, and the answers
      are those of the files as they were.
    * `ended_carryOut` — so a command line that is carried out operation by
      operation, each on what the one before has left, ends as `run` says. -/

namespace RunTimings

/-! ## Computations that agree -/

section

variable {α β : Type}

/-- Two steps are the same if the second is, wherever the first leads. -/
theorem Journaled.andThen_congr {first : Journaled α} {next next' : α → Journaled β}
    (h : ∀ a, first.outcome = .ok a → next a = next' a) :
    first.andThen next = first.andThen next' := by
  obtain ⟨notes, failure | a⟩ := first
  · rfl
  · rw [Journaled.andThen_ok, Journaled.andThen_ok, h a rfl]

/-- The same for each item, if it is the same for each of those that there are. -/
theorem Journaled.each_congr {f g : α → Journaled β} {items : List α}
    (h : ∀ item ∈ items, f item = g item) : Journaled.each f items = Journaled.each g items := by
  induction items with
  | nil => rfl
  | cons item rest ih =>
      rw [List.forall_mem_cons] at h
      rw [Journaled.each, Journaled.each, h.1, ih h.2]

end

/-! ## The questions of a request -/

variable {files other : FileView}

theorem StepDataset.discover_congr {directory : String}
    (h : files.list directory = other.list directory) :
    StepDataset.discover files directory = StepDataset.discover other directory := by
  simp only [StepDataset.discover, listFileNames, h]

theorem CycleDataset.discover_congr (dataDirectory asker : String) (cycles : Nat)
    {peerDirectory : String} (h : files.list peerDirectory = other.list peerDirectory) :
    CycleDataset.discover files dataDirectory peerDirectory asker cycles
      = CycleDataset.discover other dataDirectory peerDirectory asker cycles := by
  simp only [CycleDataset.discover, listFileNames, h]

theorem openLog_congr {path : String} (h : files.load path = other.load path) :
    openLog files path = openLog other path := by
  simp only [openLog, h]

/-- An analysis of steps reads the logs of its dataset, and no other files. -/
theorem analyseSteps_congr {dataset : StepDataset}
    (h : ∀ path ∈ dataset.paths, files.load path = other.load path) :
    analyseSteps files dataset = analyseSteps other dataset := by
  have heach : ∀ path ∈ dataset.paths, analyseStepLog files path = analyseStepLog other path := by
    intro path hmem
    simp only [analyseStepLog, openLog_congr (h path hmem)]
  simp only [analyseSteps, Journaled.each_congr heach]

/-- And so does one of cycles. -/
theorem analyseCycles_congr {dataset : CycleDataset}
    (h : ∀ path ∈ dataset.paths, files.load path = other.load path) :
    analyseCycles files dataset = analyseCycles other dataset := by
  simp only [CycleDataset.paths, List.forall_mem_append, List.forall_mem_singleton] at h
  have heach : ∀ path ∈ dataset.participants, analyseWaitLog files dataset.totalCycles path
      = analyseWaitLog other dataset.totalCycles path := by
    intro path hmem
    simp only [analyseWaitLog, openLog_congr (h.1 path hmem)]
  simp only [analyseCycles, analyseAskerLog, Journaled.each_congr heach, openLog_congr h.2]

/-- **WHAT A REPORT RESTS ON**: the entries of the directories of the request, and
    the logs that these tell of. -/
theorem Request.report_congr {request : Request} (format : Format)
    (hlist : ∀ directory ∈ request.directories, files.list directory = other.list directory)
    (hload : ∀ paths, (request.logs files).outcome = .ok paths →
      ∀ path ∈ paths, files.load path = other.load path) :
    request.report files format = request.report other format := by
  cases request with
  | steps directory =>
      have hfound := StepDataset.discover_congr (hlist directory List.mem_cons_self)
      simp only [Request.report, ← hfound]
      refine Journaled.andThen_congr fun dataset hdataset => ?_
      have hlogs : ((Request.steps directory).logs files).outcome = .ok dataset.paths := by
        show (Journaled.andThen _ _).outcome = _
        rw [Journaled.outcome_andThen, hdataset]
        rfl
      rw [analyseSteps_congr (hload _ hlogs)]
  | cycles dataDirectory peerDirectory asker cycles =>
      have hfound := CycleDataset.discover_congr dataDirectory asker cycles
        (hlist peerDirectory List.mem_cons_self)
      simp only [Request.report, ← hfound]
      refine Journaled.andThen_congr fun dataset hdataset => ?_
      have hlogs : ((Request.cycles dataDirectory peerDirectory asker cycles).logs files).outcome
          = .ok dataset.paths := by
        show (Journaled.andThen _ _).outcome = _
        rw [Journaled.outcome_andThen, hdataset]
        rfl
      rw [analyseCycles_congr (hload _ hlogs)]

/-! ## Asking beforehand -/

/-- What was asked is answered. -/
theorem answerTo_map {α : Type} {answer : String → Except FileError α} {paths : List String}
    {path : String} (h : path ∈ paths) :
    answerTo (paths.map fun path => (path, answer path)) path = answer path := by
  simp only [answerTo]
  induction paths with
  | nil => cases h
  | cons first rest ih =>
      rw [List.map_cons, List.lookup_cons]
      by_cases hfirst : path = first
      · subst hfirst
        rw [beq_self_eq_true]
        rfl
      · rw [beq_eq_false_iff_ne.mpr hfirst]
        exact ih ((List.mem_cons.mp h).resolve_left hfirst)

/-- A question that leaves a machine as it is. -/
def asked {α : Type} (answer : FileSystem → String → α) (path : String) : StateM Machine α :=
  fun machine => (answer machine.files path, machine)

/-- Of several such questions all are answered as if each were the first. -/
theorem run_askEach {α : Type} (answer : FileSystem → String → α) (paths : List String)
    (machine : Machine) :
    (askEach (asked answer) paths).run machine
      = (paths.map fun path => (path, answer machine.files path), machine) := by
  simp only [askEach]
  induction paths with
  | nil => rfl
  | cons path rest ih =>
      rw [List.mapM_cons]
      exact congrArg (fun p => ((path, answer machine.files path) :: p.1, p.2)) ih

/-- What follows an action goes on from where it has led. -/
theorem run_bind_of {σ α β : Type} {action : StateM σ α} {next : α → StateM σ β} {s t : σ}
    {a : α} (h : action.run s = (a, t)) : (action >>= next).run s = (next a).run t := by
  rw [StateT.run_bind, h]
  rfl

/-- **ASKED BEFOREHAND**: a survey leaves a machine as it is, and its answers make the
    report that the files of the machine would make themselves. -/
theorem run_survey (request : Request) (format : Format) (machine : Machine) :
    ∃ files, (request.survey Machine.system).run machine = (files, machine)
      ∧ request.report files format = request.report machine.files.view format := by
  have hlists := run_askEach (fun fs => fs.view.list) request.directories machine
  have hlogs := fun paths => run_askEach (fun fs => fs.view.load) paths machine
  refine ⟨_, (run_bind_of hlists).trans (run_bind_of (hlogs _)), ?_⟩
  refine Request.report_congr format (fun directory hmem => answerTo_map hmem) ?_
  intro paths hpaths path hmem
  -- the logs are told by the directories, which had been asked before any log was
  have htold : (request.logs ⟨answerTo (request.directories.map fun path =>
      (path, machine.files.view.list path)), answerTo []⟩).outcome = .ok paths := by
    rw [← hpaths]
    cases request with
    | steps directory => rfl
    | cycles dataDirectory peerDirectory asker cycles => rfl
  show answerTo (List.map _ _) path = _
  rw [htold]
  exact answerTo_map hmem

/-- A command carried out operation by operation. -/
theorem ended_carryOut_command (command : Command) (setting : Option String) (fs : FileSystem) :
    Machine.ended fs (command.carryOut Machine.system setting) = command.run setting fs := by
  obtain ⟨files, hsurvey, hreport⟩ := run_survey command.request command.format ⟨fs, ""⟩
  have hrun : (command.carryOut Machine.system setting).run ⟨fs, ""⟩
      = (command.conclude Machine.system setting
          (command.request.report fs.view command.format)).run ⟨fs, ""⟩ :=
    (run_bind_of hsurvey).trans (by rw [hreport])
  simp only [Command.run, Machine.ended, hrun]

/-- **ONE OPERATION AFTER THE OTHER**: a command line carried out on a file system,
    each operation on what the ones before it have left, ends as it does where all
    is read off the file system as it was. -/
theorem ended_carryOut (arguments : List String) (setting : Option String) (fs : FileSystem) :
    Machine.ended fs (carryOut Machine.system setting arguments) = run arguments setting fs := by
  simp only [carryOut, run]
  cases Command.ofArguments arguments with
  | error halt =>
      cases halt with
      | usage => rfl
      | help => rfl
  | ok command => exact ended_carryOut_command command setting fs

end RunTimings
