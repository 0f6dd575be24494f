import Mathlib.Algebra.Order.BigOperators.Group.List
import RunTimings.Proofs.FirstOffences
import RunTimings.Proofs.UnusedLines

/-! # The lines of a participant in another order

    Waits are added up line by line, and the range check comes after every line,
    so the order of the lines may decide whether there are sums at all.  It does
    not decide anything else.

    * `readable_of_perm` and `markers_perm` — the same lines in another order are
      as readable, and hold the same markers; so the sums of all waits are the
      same (`sum_waitsOf_of_perm`).
    * `waitsFit_iff_of_nonneg` — where no wait is negative, no running sum is
      greater than the total behind it, and the rule on waits asks for known
      cycles and for totals that fit, whatever the order.
    * **`waits_in_any_order`** — sums that are there in two orders are the same,
      and without negative waits they are there in both orders or in neither. -/

namespace RunTimings

open RunTimings.Text

/-! ## The same lines -/

/-- The markers of a log are those on its lines. -/
theorem markers_eq_markersOn {log : LogContent} (h : log.fault = none) :
    log.markers = markersOn log.lines := by
  simp only [markersOn, LogContent.markers, LogContent.lines]
  rw [h, List.filterMap_map]
  rfl

theorem readable_of_perm {log other : LogContent} (hperm : log.lines.Perm other.lines)
    (h : log.Readable) : other.Readable := by
  rw [readable_iff_lines] at h ⊢
  exact fun content hmem => h content (hperm.mem_iff.mpr hmem)

/-- Readable logs of the same lines hold the same markers. -/
theorem markers_perm {log other : LogContent} (hperm : log.lines.Perm other.lines)
    (h : log.Readable) : log.markers.Perm other.markers := by
  rw [markers_eq_markersOn h.1, markers_eq_markersOn (readable_of_perm hperm h).1]
  exact hperm.filterMap _

theorem sum_waitsOf_of_perm {markers other : List Marker} (hperm : markers.Perm other)
    (cycle : Nat) : (waitsOf cycle markers).sum = (waitsOf cycle other).sum :=
  (hperm.filterMap (Marker.waitOf cycle)).sum_eq

/-! ## Waits that are not negative -/

/-- No wait among the markers is negative. -/
def NoNegativeWait (markers : List Marker) : Prop :=
  ∀ cycle wait, Marker.waiting cycle wait ∈ markers → 0 ≤ wait

/-- Every wait among the markers is of one of so many cycles. -/
def WaitsKnown (cycles : Nat) (markers : List Marker) : Prop :=
  ∀ cycle wait, Marker.waiting cycle wait ∈ markers → cycle < cycles

/-- Some sum of the first waits of a cycle does not fit. -/
def RunsOver (markers : List Marker) : Prop :=
  ∃ cycle waits, waits <+: waitsOf cycle markers ∧ ¬ Signed64 waits.sum

/-- The total of some cycle is too great. -/
def TotalsOver (markers : List Marker) : Prop :=
  ∃ cycle, 0x7fffffffffffffff < (waitsOf cycle markers).sum

theorem NoNegativeWait.of_mem_waitsOf {markers : List Marker} (h : NoNegativeWait markers)
    {cycle : Nat} {wait : Int} (hmem : wait ∈ waitsOf cycle markers) : 0 ≤ wait := by
  obtain ⟨marker, hmarker, hwait⟩ := List.mem_filterMap.mp hmem
  exact h cycle wait (Marker.eq_of_waitOf hwait ▸ hmarker)

/-- **RUNNING SUMS**: the first waits of a cycle add up to no more than all of
    them, and to no less than nothing. -/
theorem NoNegativeWait.sum_prefix {markers : List Marker} (h : NoNegativeWait markers)
    {cycle : Nat} {waits : List Int} (hfirst : waits <+: waitsOf cycle markers) :
    0 ≤ waits.sum ∧ waits.sum ≤ (waitsOf cycle markers).sum := by
  obtain ⟨later, hall⟩ := hfirst
  have hnonneg : ∀ wait ∈ waits ++ later, 0 ≤ wait := by
    intro wait hmem
    rw [hall] at hmem
    exact h.of_mem_waitsOf hmem
  rw [List.forall_mem_append] at hnonneg
  have hwaits := List.sum_nonneg hnonneg.1
  have hlater := List.sum_nonneg hnonneg.2
  rw [← hall, List.sum_append]
  omega

/-- A running sum does not fit exactly if a total is too great. -/
theorem runsOver_iff_of_nonneg {markers : List Marker} (h : NoNegativeWait markers) :
    RunsOver markers ↔ TotalsOver markers := by
  constructor
  · rintro ⟨cycle, waits, hfirst, hover⟩
    obtain ⟨hlow, hhigh⟩ := h.sum_prefix hfirst
    refine ⟨cycle, ?_⟩
    by_contra hfits
    exact hover ⟨by omega, by omega⟩
  · rintro ⟨cycle, hover⟩
    refine ⟨cycle, waitsOf cycle markers, List.prefix_refl _, ?_⟩
    rintro ⟨-, hhigh⟩
    omega

/-- The rule on waits: all of known cycles, and no running sum out of range. -/
theorem waitsFit_iff {cycles : Nat} {markers : List Marker} :
    WaitsFit cycles markers ↔ WaitsKnown cycles markers ∧ ¬ RunsOver markers := by
  constructor
  · intro h
    refine ⟨h.known, ?_⟩
    rintro ⟨cycle, waits, hfirst, hover⟩
    exact hover (h.bounded cycle waits hfirst)
  · rintro ⟨hknown, hfits⟩
    refine ⟨hknown, fun cycle waits hfirst => ?_⟩
    by_contra hover
    exact hfits ⟨cycle, waits, hfirst, hover⟩

/-- **WITHOUT NEGATIVE WAITS** the rule is about the totals. -/
theorem waitsFit_iff_of_nonneg {cycles : Nat} {markers : List Marker} (h : NoNegativeWait markers) :
    WaitsFit cycles markers ↔ WaitsKnown cycles markers ∧ ¬ TotalsOver markers := by
  rw [waitsFit_iff, runsOver_iff_of_nonneg h]

theorem NoNegativeWait.of_perm {markers other : List Marker} (hperm : markers.Perm other)
    (h : NoNegativeWait markers) : NoNegativeWait other :=
  fun cycle wait hmem => h cycle wait (hperm.mem_iff.mpr hmem)

/-- So the order of the markers is of no account to it. -/
theorem waitsFit_of_perm {cycles : Nat} {markers other : List Marker}
    (hperm : markers.Perm other) (hnonneg : NoNegativeWait markers)
    (h : WaitsFit cycles markers) : WaitsFit cycles other := by
  rw [waitsFit_iff_of_nonneg hnonneg] at h
  rw [waitsFit_iff_of_nonneg (hnonneg.of_perm hperm)]
  obtain ⟨hknown, hfits⟩ := h
  refine ⟨fun cycle wait hmem => hknown cycle wait (hperm.mem_iff.mpr hmem), ?_⟩
  rintro ⟨cycle, hover⟩
  exact hfits ⟨cycle, (sum_waitsOf_of_perm hperm cycle).symm ▸ hover⟩

/-! ## Sums in two orders -/

/-- There are sums exactly if the log is readable and its waits keep the rule. -/
theorem exists_sumWaits_iff (source : String) (cycles : Nat) (log : LogContent) :
    (∃ sums, sumWaits source cycles log = .ok sums)
      ↔ log.Readable ∧ WaitsFit cycles log.markers := by
  simp only [sumWaits_eq_ok_iff]
  exact ⟨fun ⟨_, h, _⟩ => h, fun h => ⟨_, h, rfl⟩⟩

/-- A wait of a known cycle offends only by a sum that does not fit. -/
theorem offenceAt_waits_of_known {source : String} {cycles : Nat} {log : LogContent}
    (hreadable : log.Readable) (hknown : WaitsKnown cycles log.markers) {line : Nat}
    {failure : Failure}
    (h : (Demand.waits cycles).offenceAt source log.lines line = some failure) :
    ∃ cycle, failure = .waitOverflow source line cycle := by
  cases line with
  | zero => cases h
  | succ place =>
      obtain ⟨content, hcontent, hoffence⟩ := Option.bind_eq_some_iff.mp h
      have hmem := List.mem_of_getElem? hcontent
      obtain ⟨bytes, found, rfl, hread⟩ := (readable_iff_lines log).mp hreadable content hmem
      simp only [Demand.offence] at hoffence
      rw [hread] at hoffence
      cases found with
      | none => cases hoffence
      | some marker =>
          have hmarker : marker ∈ log.markers := by
            rw [markers_eq_markersOn hreadable.1]
            refine List.mem_filterMap.mpr ⟨_, hmem, ?_⟩
            simp only [Except.toOption, Option.bind_some, markerOn]
            rw [hread]
          simp only [Demand.waits] at hoffence
          cases marker with
          | waiting cycle wait =>
              simp only at hoffence
              rw [if_pos (hknown cycle wait hmarker)] at hoffence
              obtain ⟨-, hsome⟩ := Option.ite_none_left_eq_some.mp hoffence
              exact ⟨cycle, (Option.some.inj hsome).symm⟩
          | _ => cases hoffence

/-- A readable log of known cycles has no sums only because one does not fit, and
    then the failure says so. -/
theorem exists_waitOverflow_iff (source : String) {cycles : Nat} {log : LogContent}
    (hreadable : log.Readable) (hknown : WaitsKnown cycles log.markers) :
    (∃ line cycle, sumWaits source cycles log = .error (.waitOverflow source line cycle))
      ↔ RunsOver log.markers := by
  have hsums : (∃ sums, sumWaits source cycles log = .ok sums) ↔ ¬ RunsOver log.markers := by
    rw [exists_sumWaits_iff, waitsFit_iff]
    exact ⟨fun h => h.2.2, fun h => ⟨hreadable, hknown, h⟩⟩
  constructor
  · rintro ⟨line, cycle, herror⟩
    by_contra hfits
    obtain ⟨sums, hok⟩ := hsums.mpr hfits
    rw [herror] at hok
    cases hok
  · intro hover
    cases hresult : sumWaits source cycles log with
    | ok sums => exact absurd hover (hsums.mp ⟨sums, hresult⟩)
    | error failure =>
        have hfails := (sumWaits_eq_error_iff source cycles log failure).mp hresult
        rcases Demand.failsOn_iff.mp hfails with ⟨line, hfirst⟩ | ⟨-, hlacks⟩
        · obtain ⟨cycle, rfl⟩ := offenceAt_waits_of_known hreadable hknown hfirst.offends
          exact ⟨line, cycle, rfl⟩
        · exact hlacks.elim

/-- Without negative waits there are sums in every order if there are in one. -/
theorem exists_sumWaits_of_perm {source : String} {cycles : Nat} {log other : LogContent}
    (hperm : log.lines.Perm other.lines) (hnonneg : NoNegativeWait log.markers)
    (h : ∃ sums, sumWaits source cycles log = .ok sums) :
    ∃ sums, sumWaits source cycles other = .ok sums := by
  obtain ⟨hreadable, hfit⟩ := (exists_sumWaits_iff source cycles log).mp h
  exact (exists_sumWaits_iff source cycles other).mpr
    ⟨readable_of_perm hperm hreadable, waitsFit_of_perm (markers_perm hperm hreadable) hnonneg hfit⟩

/-- **ANY ORDER OF LINES**: two logs of the same lines have the same sums if both
    have sums.  If no wait is negative, both have or neither; and a running sum
    goes over exactly if the total of some cycle does, which is then how a log
    fails that is readable and tells of known cycles only. -/
theorem waits_in_any_order (source : String) (cycles : Nat) (log other : LogContent)
    (hperm : log.lines.Perm other.lines) :
    (∀ sums sums', sumWaits source cycles log = .ok sums →
        sumWaits source cycles other = .ok sums' → sums = sums')
      ∧ (NoNegativeWait log.markers →
        ((∃ sums, sumWaits source cycles log = .ok sums)
            ↔ ∃ sums, sumWaits source cycles other = .ok sums)
          ∧ (RunsOver log.markers ↔ TotalsOver log.markers)
          ∧ (log.Readable → WaitsKnown cycles log.markers →
            ((∃ line cycle, sumWaits source cycles log = .error (.waitOverflow source line cycle))
              ↔ TotalsOver log.markers))) := by
  refine ⟨?_, fun hnonneg => ⟨⟨?_, ?_⟩, runsOver_iff_of_nonneg hnonneg, ?_⟩⟩
  · intro sums sums' hsums hsums'
    obtain ⟨⟨hreadable, -⟩, rfl⟩ := (sumWaits_eq_ok_iff source cycles log sums).mp hsums
    obtain ⟨-, rfl⟩ := (sumWaits_eq_ok_iff source cycles other sums').mp hsums'
    refine List.map_congr_left fun cycle _ => ?_
    exact sum_waitsOf_of_perm (markers_perm hperm hreadable) cycle
  · exact exists_sumWaits_of_perm hperm hnonneg
  · intro h
    -- only a readable log has sums, and then the markers are the same
    have hreadable := ((exists_sumWaits_iff source cycles other).mp h).1
    exact exists_sumWaits_of_perm hperm.symm
      (hnonneg.of_perm (markers_perm hperm.symm hreadable).symm) h
  · intro hreadable hknown
    rw [exists_waitOverflow_iff source hreadable hknown, runsOver_iff_of_nonneg hnonneg]

/-- The log of some lines. -/
def logOfTexts (lines : List String) : LogContent :=
  .ofLines (lines.map fun line => Utf8.encode line.toList) none

/-- Waits of one cycle that add up to the greatest sum that fits, and another. -/
def brimfulLog : LogContent :=
  logOfTexts ["Waiting, id time: 1_1test0 9223372036854775806", "noise",
    "Waiting, id time: 1_1test1 5", "Waiting, id time: 1_1test0 1"]

/-- The same lines in another order. -/
def reorderedLog : LogContent :=
  logOfTexts ["Waiting, id time: 1_1test0 1", "Waiting, id time: 1_1test1 5",
    "Waiting, id time: 1_1test0 9223372036854775806", "noise"]

/-- The sums of the one order are those of the other. -/
theorem sums_of_reorderedLog :
    brimfulLog.lines.Perm reorderedLog.lines ∧ NoNegativeWait brimfulLog.markers
      ∧ sumWaits "p" 2 reorderedLog = .ok [9223372036854775807, 5] := by
  have hperm : brimfulLog.lines.Perm reorderedLog.lines := by decide +kernel
  have hnonneg : NoNegativeWait brimfulLog.markers := by
    have hmarkers : brimfulLog.markers
        = [.waiting 0 9223372036854775806, .waiting 1 5, .waiting 0 1] := by decide +kernel
    rw [hmarkers]
    intro cycle wait hmem
    simp only [List.mem_cons, Marker.waiting.injEq, List.not_mem_nil, or_false] at hmem
    omega
  have hsums : sumWaits "p" 2 brimfulLog = .ok [9223372036854775807, 5] := by decide +kernel
  obtain ⟨hsame, hwithout⟩ := waits_in_any_order "p" 2 brimfulLog reorderedLog hperm
  obtain ⟨sums, hother⟩ := (hwithout hnonneg).1.mp ⟨_, hsums⟩
  refine ⟨hperm, hnonneg, ?_⟩
  rw [hother, hsame _ _ hsums hother]

-- a negative wait in time keeps the sum in range, and comes too late in another order
example :
    sumWaits "p" 1 (logOfTexts ["Waiting, id time: 1_1test0 9223372036854775807",
        "Waiting, id time: 1_1test0 -1", "Waiting, id time: 1_1test0 1"])
      = .ok [9223372036854775807]
    ∧ sumWaits "p" 1 (logOfTexts ["Waiting, id time: 1_1test0 9223372036854775807",
        "Waiting, id time: 1_1test0 1", "Waiting, id time: 1_1test0 -1"])
      = .error (.waitOverflow "p" 2 0) := by
  decide +kernel

end RunTimings
