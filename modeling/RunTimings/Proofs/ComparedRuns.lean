import Mathlib.Algebra.BigOperators.Group.List.Basic
import Mathlib.Data.Set.Subsingleton
import Mathlib.Order.Bounds.Defs
import RunTimings.Proofs.CycleReports

/-! # Two cycle analyses of the same files — what may differ and what may not

    The cycle analysis takes two things on trust: the number of cycles, and the
    order in which the participants are listed.  Here two analyses are compared
    that differ in one of them.

    * The number of cycles cannot be wrong and go unnoticed: too small, a marker
      of the asker is of no known cycle; too great, a cycle has no bounds
      (`totalCycles_eq`).  `at_most_one_cycle_count` says so of reports, and
      reads the number off the asker's markers.
    * The order of the participants is of no account: the conditions are on each
      file by itself, and the waits are added up exactly before anything is
      rounded (`CycleReport.Tells.of_perm`); so the same reports are made
      (`reports_in_any_order`). -/

namespace RunTimings

/-! ## The number of cycles -/

/-- The cycles of which a file marks a start, or an end. -/
def FileView.marked (files : FileView) (path : String) (bound : CycleBound) : Set Nat :=
  {cycle | ∃ timestamp, bound.marker cycle timestamp ∈ files.markers path}

/-- Of analysable files the asker marks both bounds of exactly the cycles in
    question. -/
theorem CycleDataset.Analysable.mem_marked_iff {files : FileView} {dataset : CycleDataset}
    (h : dataset.Analysable files) (bound : CycleBound) (cycle : Nat) :
    cycle ∈ files.marked dataset.asker bound ↔ cycle < dataset.totalCycles := by
  constructor
  · rintro ⟨timestamp, hmem⟩
    cases bound with
    | start => exact h.known.starts cycle timestamp hmem
    | finish => exact h.known.finishes cycle timestamp hmem
  · intro hcycle
    obtain ⟨start, finish, hstart, -, hfinish, -⟩ := h.bounded cycle hcycle
    have hlast : ∃ timestamp, lastBound bound cycle (files.markers dataset.asker)
        = some timestamp := by
      cases bound with
      | start => exact ⟨start, hstart⟩
      | finish => exact ⟨finish, hfinish⟩
    obtain ⟨timestamp, hlast⟩ := hlast
    obtain ⟨marker, hmem, hbound⟩ := exists_of_lastBound hlast
    exact ⟨timestamp, marker.eq_of_boundOf hbound ▸ hmem⟩

/-- **THE COUNT**: two analysable datasets with one asker are of as many cycles,
    whoever their participants are. -/
theorem totalCycles_eq {files : FileView} {dataset other : CycleDataset}
    (h : dataset.Analysable files) (hother : other.Analysable files)
    (hasker : dataset.asker = other.asker) : dataset.totalCycles = other.totalCycles := by
  -- each number would be a cycle of the other dataset if it were smaller
  have hsame : ∀ cycle, cycle < dataset.totalCycles ↔ cycle < other.totalCycles := by
    intro cycle
    rw [← h.mem_marked_iff .start, ← hother.mem_marked_iff .start, hasker]
  have hle := (hsame dataset.totalCycles).not.mp (Nat.lt_irrefl _)
  have hge := (hsame other.totalCycles).not.mpr (Nat.lt_irrefl _)
  omega

/-- The last of the cycles in question is the greatest that the asker marks. -/
theorem CycleDataset.Analysable.isGreatest {files : FileView} {dataset : CycleDataset}
    (h : dataset.Analysable files) (hsome : 1 ≤ dataset.totalCycles) (bound : CycleBound) :
    IsGreatest (files.marked dataset.asker bound) (dataset.totalCycles - 1) := by
  constructor
  · rw [h.mem_marked_iff bound]
    omega
  · intro cycle hcycle
    have := (h.mem_marked_iff bound cycle).mp hcycle
    omega

/-- The numbers of cycles under which there is a report on the files. -/
def CycleDataset.counts (files : FileView) (dataset : CycleDataset) : Set Nat :=
  {cycles | ∃ report,
    (analyseCycles files { dataset with totalCycles := cycles }).outcome = .ok report}

/-- **A WRONG COUNT IS NOTICED**: of the same files there is a report under one
    number of cycles at most; that number is one more than the greatest cycle
    of which the asker marks a start, and than the greatest of which it marks
    an end, unless it is zero. -/
theorem at_most_one_cycle_count (files : FileView) (dataset : CycleDataset) :
    (dataset.counts files).Subsingleton
      ∧ ∀ cycles ∈ dataset.counts files, 1 ≤ cycles →
        IsGreatest {cycle | ∃ timestamp,
            Marker.startCycle cycle timestamp ∈ files.markers dataset.asker} (cycles - 1)
          ∧ IsGreatest {cycle | ∃ timestamp,
            Marker.endId cycle timestamp ∈ files.markers dataset.asker} (cycles - 1) := by
  constructor
  · rintro cycles ⟨report, hreport⟩ cycles' ⟨report', hreport'⟩
    exact totalCycles_eq (CycleReport.sound hreport).1 (CycleReport.sound hreport').1 rfl
  · rintro cycles ⟨report, hreport⟩ hsome
    have hfiles := (CycleReport.sound hreport).1
    exact ⟨hfiles.isGreatest hsome .start, hfiles.isGreatest hsome .finish⟩

/-- Files that are texts. -/
def textFiles (texts : List (String × String)) : FileView where
  list := fun _ => .error .notFound
  load := fun path =>
    match texts.lookup path with
    | some text => .ok { bytes := text.toUTF8.toList }
    | none => .error .notFound

/-- Three participants whose waits, added up in binary64, have one sum in the order
    of their names and another if the first comes last. -/
def unevenFiles : FileView :=
  textFiles [("a", "Waiting, id time: 1_1test0 9007199254740992\n"),
    ("b", "Waiting, id time: 2_1test0 1\n"), ("c", "Waiting, id time: 3_1test0 1\n"),
    ("run", "Start Cycle 0: 1000\nEnd ID: 1_1test0, 1500\n")]

/-- The dataset of these files. -/
def unevenRun : CycleDataset :=
  ⟨"run", ["a", "b", "c"], ".", 1⟩

/-- Of these files there is a report under the number one, and under no other. -/
theorem counts_unevenRun : unevenRun.counts unevenFiles = {1} :=
  (at_most_one_cycle_count unevenFiles unevenRun).1.eq_singleton_of_mem
    ⟨⟨3, [⟨0, Float.ofInt 9007199254740994 / 3.0, 500⟩]⟩, by decide +kernel⟩

/-! ## The order of the participants -/

/-- The conditions are on each file by itself. -/
theorem CycleDataset.Analysable.of_perm {files : FileView} {dataset : CycleDataset}
    {order : List String} (h : dataset.Analysable files)
    (hperm : order.Perm dataset.participants) :
    CycleDataset.Analysable files { dataset with participants := order } where
  participants := by
    rintro rfl
    exact h.participants hperm.nil_eq.symm
  readable := by
    intro path hpath
    exact h.readable path ((hperm.append_right [dataset.asker]).mem_iff.mp hpath)
  waits := fun path hpath => h.waits path (hperm.mem_iff.mp hpath)
  known := h.known
  bounded := h.bounded

/-- The exact sum of all waits of a cycle does not depend on the order. -/
theorem CycleDataset.sum_allWaits_of_perm (files : FileView) (dataset : CycleDataset)
    {order : List String} (hperm : order.Perm dataset.participants) (cycle : Nat) :
    (CycleDataset.allWaits files { dataset with participants := order } cycle).sum
      = (dataset.allWaits files cycle).sum :=
  (hperm.flatMap_right fun path => waitsOf cycle (files.markers path)).sum_eq

/-- What a report tells, it tells of the participants in any order. -/
theorem CycleReport.Tells.of_perm {files : FileView} {dataset : CycleDataset}
    {order : List String} {report : CycleReport} (h : report.Tells files dataset)
    (hperm : order.Perm dataset.participants) :
    report.Tells files { dataset with participants := order } where
  participants := by rw [h.participants, hperm.length_eq]
  length := h.length
  row := by
    intro cycle hcycle
    obtain ⟨start, finish, hstart, hfinish, hfits, hrow⟩ := h.row cycle hcycle
    refine ⟨start, finish, hstart, hfinish, hfits, ?_⟩
    rw [hrow, dataset.sum_allWaits_of_perm files hperm, hperm.length_eq]

/-- A report on the participants in one order is made of them in any other. -/
theorem outcome_of_perm {files : FileView} {dataset : CycleDataset} {order : List String}
    {report : CycleReport} (hperm : order.Perm dataset.participants)
    (h : (analyseCycles files dataset).outcome = .ok report) :
    (analyseCycles files { dataset with participants := order }).outcome = .ok report := by
  obtain ⟨hfiles, htells⟩ := CycleReport.sound h
  -- there is some report, and it tells the same
  obtain ⟨made, hmade⟩ := (hfiles.of_perm hperm).exists_report
  rw [(htells.of_perm hperm).unique (CycleReport.sound hmade).2]
  exact hmade

/-- **ANY ORDER**: whatever order the participants are listed in, there is a
    report on them or there is none, and if there is one it is the same to the
    last bit of its averages. -/
theorem reports_in_any_order (files : FileView) (dataset : CycleDataset) (order : List String)
    (hperm : order.Perm dataset.participants) (report : CycleReport) :
    (analyseCycles files { dataset with participants := order }).outcome = .ok report
      ↔ (analyseCycles files dataset).outcome = .ok report :=
  ⟨@outcome_of_perm files { dataset with participants := order } _ report hperm.symm,
    outcome_of_perm hperm⟩

/-- The report on the uneven waits is made of their exact sum in either order. -/
theorem report_of_reordered_unevenRun :
    ["b", "c", "a"].Perm unevenRun.participants
      ∧ (analyseCycles unevenFiles { unevenRun with participants := ["b", "c", "a"] }).outcome
        = .ok ⟨3, [⟨0, Float.ofInt 9007199254740994 / 3.0, 500⟩]⟩ := by
  have hperm : ["b", "c", "a"].Perm unevenRun.participants := by decide
  exact ⟨hperm, (reports_in_any_order _ _ _ hperm _).mpr (by decide +kernel)⟩

end RunTimings
