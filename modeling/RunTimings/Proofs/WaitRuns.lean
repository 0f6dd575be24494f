import Mathlib.Algebra.Ring.Int.Defs
import RunTimings.Measure.Waits
import RunTimings.Proofs.LogReading

/-! # Waits over whole logs — running sums and totals

    A participant's waits are added up with a range check after each of them;
    the totals over participants have no such check.

    * `waitsOf` lists the waits of a cycle in a log, and `WaitsFit` is the rule
      that the checks amount to: no unknown cycle, no running sum out of range.
    * `follows_waits` shows that the accumulator follows this rule with the sums
      of `waitsOf` as its state, so `sumWaits_eq_ok_iff` says when a log has
      wait sums and which they are.
    * `totals_of_lists` gives the totals over any lists of waits: each is the sum
      of what the lists have in its place. -/

namespace RunTimings

/-! ## One participant -/

/-- The wait a marker tells of a cycle. -/
def Marker.waitOf (cycle : Nat) : Marker → Option Int
  | .waiting c wait => if c = cycle then some wait else none
  | _ => none

/-- A marker tells a wait of a cycle only if it is that wait. -/
theorem Marker.eq_of_waitOf {marker : Marker} {cycle : Nat} {wait : Int}
    (h : marker.waitOf cycle = some wait) : marker = .waiting cycle wait := by
  cases marker with
  | waiting c w =>
      obtain ⟨rfl, hsame⟩ := Option.ite_none_right_eq_some.mp h
      rw [Option.some.inj hsame]
  | _ => cases h

/-- The waits of a cycle among some markers, in their order. -/
def waitsOf (cycle : Nat) (markers : List Marker) : List Int :=
  markers.filterMap (Marker.waitOf cycle)

theorem waitsOf_concat (cycle : Nat) (past : List Marker) (marker : Marker) :
    waitsOf cycle (past ++ [marker]) = waitsOf cycle past ++ (marker.waitOf cycle).toList := by
  simp only [waitsOf]
  rw [List.filterMap_append]
  cases h : marker.waitOf cycle <;> simp [h]

/-- The rule on waits: each is of a known cycle, and every sum of the first
    waits of a cycle fits. -/
structure WaitsFit (cycles : Nat) (markers : List Marker) : Prop where
  known : ∀ cycle wait, Marker.waiting cycle wait ∈ markers → cycle < cycles
  bounded : ∀ cycle waits, waits <+: waitsOf cycle markers → Signed64 waits.sum

theorem waitsFit_nil (cycles : Nat) : WaitsFit cycles [] := by
  refine ⟨?_, ?_⟩
  · intro cycle wait h
    exact absurd h List.not_mem_nil
  · intro cycle waits h
    rw [List.prefix_nil.mp h]
    decide

/-- The first waits are those of the log so far, or all with the new one. -/
theorem WaitsFit.of_concat {cycles : Nat} {past : List Marker} {marker : Marker}
    (h : WaitsFit cycles (past ++ [marker])) : WaitsFit cycles past := by
  refine ⟨fun cycle wait hmem => h.known cycle wait (List.mem_append_left _ hmem), ?_⟩
  intro cycle waits hprefix
  refine h.bounded cycle waits ?_
  rw [waitsOf_concat]
  exact hprefix.trans (List.prefix_append _ _)

/-- A further wait keeps the rule if its cycle is known and its sum fits. -/
theorem waitsFit_concat_waiting {cycles : Nat} {past : List Marker} (h : WaitsFit cycles past)
    (cycle : Nat) (wait : Int) :
    WaitsFit cycles (past ++ [.waiting cycle wait])
      ↔ cycle < cycles ∧ Signed64 ((waitsOf cycle past).sum + wait) := by
  have hown : waitsOf cycle (past ++ [.waiting cycle wait]) = waitsOf cycle past ++ [wait] := by
    rw [waitsOf_concat]
    simp [Marker.waitOf]
  constructor
  · intro hall
    refine ⟨hall.known cycle wait (List.mem_append_right _ (List.mem_cons_self ..)), ?_⟩
    have hsum := hall.bounded cycle _ (List.prefix_refl _)
    rw [hown, List.sum_append, List.sum_singleton] at hsum
    exact hsum
  · rintro ⟨hknown, hfits⟩
    refine ⟨?_, ?_⟩
    · intro c w hmem
      rcases List.mem_append.mp hmem with hold | hnew
      · exact h.known c w hold
      · cases List.mem_singleton.mp hnew
        exact hknown
    · intro c waits hprefix
      -- only the sums of the new wait's own cycle are new, and of these only the last
      by_cases hc : cycle = c
      · subst hc
        rw [hown, List.prefix_concat_iff] at hprefix
        rcases hprefix with hall | hold
        · rw [hall, List.sum_append, List.sum_singleton]
          exact hfits
        · exact h.bounded cycle waits hold
      · rw [waitsOf_concat] at hprefix
        refine h.bounded c waits ?_
        simpa [Marker.waitOf, hc] using hprefix

/-- A marker that is no wait keeps the rule. -/
theorem waitsFit_concat_other {cycles : Nat} {past : List Marker} (h : WaitsFit cycles past)
    {marker : Marker} (hother : ∀ cycle, marker.waitOf cycle = none) :
    WaitsFit cycles (past ++ [marker]) := by
  refine ⟨?_, ?_⟩
  · intro c w hmem
    rcases List.mem_append.mp hmem with hold | hnew
    · exact h.known c w hold
    · rw [← List.mem_singleton.mp hnew] at hother
      exact absurd (hother c) (by simp [Marker.waitOf])
  · intro c waits hprefix
    rw [waitsOf_concat, hother c] at hprefix
    refine h.bounded c waits ?_
    simpa using hprefix

/-- The sums belong to some markers: each is the sum of the waits of its cycle. -/
def WaitSums.Of {cycles : Nat} (markers : List Marker) (waits : WaitSums cycles) : Prop :=
  ∀ cycle, (h : cycle < cycles) → waits.sums[cycle] = (waitsOf cycle markers).sum

/-- A marker that is no wait is not noticed. -/
theorem WaitSums.observe_other {cycles : Nat} (source : String) (line : Nat) {marker : Marker}
    (hother : ∀ cycle, marker.waitOf cycle = none) (waits : WaitSums cycles) :
    waits.observe source line marker = ⟨waits, none⟩ := by
  cases marker with
  | waiting c w => exact absurd (hother c) (by simp [Marker.waitOf])
  | _ => rfl

theorem WaitSums.observe_waiting {cycles : Nat} (source : String) (line cycle : Nat) (wait : Int)
    (waits : WaitSums cycles) :
    waits.observe source line (.waiting cycle wait)
      = if known : cycle < cycles then
          if Signed64 (waits.sums[cycle] + wait) then
            ⟨⟨waits.sums.set cycle (waits.sums[cycle] + wait) known⟩, none⟩
          else ⟨waits, some (.waitOverflow source line cycle)⟩
        else ⟨waits, some (.cycleOutOfRange source line cycle cycles)⟩ := rfl

/-- A wait goes through if its cycle is known and the new sum fits. -/
theorem WaitSums.stop_waiting {cycles : Nat} (source : String) (line cycle : Nat) (wait : Int)
    (waits : WaitSums cycles) :
    (waits.observe source line (.waiting cycle wait)).stop = none
      ↔ ∃ h : cycle < cycles, Signed64 (waits.sums[cycle] + wait) := by
  rw [WaitSums.observe_waiting]
  by_cases hknown : cycle < cycles
  · rw [dif_pos hknown]
    by_cases hfits : Signed64 (waits.sums[cycle] + wait)
    · rw [if_pos hfits]
      exact ⟨fun _ => ⟨hknown, hfits⟩, fun _ => rfl⟩
    · rw [if_neg hfits]
      constructor
      · intro heq
        cases heq
      · rintro ⟨_, hfits'⟩
        exact absurd hfits' hfits
  · rw [dif_neg hknown]
    constructor
    · intro heq
      cases heq
    · rintro ⟨hknown', _⟩
      exact absurd hknown' hknown

/-- A wait that goes through is added to the sum of its cycle and to no other. -/
theorem WaitSums.getElem_waiting {cycles : Nat} (source : String) (line cycle : Nat) (wait : Int)
    (waits : WaitSums cycles) (hknown : cycle < cycles)
    (hfits : Signed64 (waits.sums[cycle] + wait)) (c : Nat) (hc : c < cycles) :
    (waits.observe source line (.waiting cycle wait)).state.sums[c]
      = waits.sums[c] + if cycle = c then wait else 0 := by
  rw [WaitSums.observe_waiting, dif_pos hknown, if_pos hfits]
  show (waits.sums.set cycle (waits.sums[cycle] + wait) hknown)[c] = _
  rw [Vector.getElem_set]
  by_cases hsame : cycle = c
  · subst hsame
    rw [if_pos rfl, if_pos rfl]
  · rw [if_neg hsame, if_neg hsame, Int.add_zero]

/-- After a marker at which they do not stop, the sums belong to one marker
    more. -/
theorem WaitSums.Of.observe {cycles : Nat} {past : List Marker} {waits : WaitSums cycles}
    (hsums : waits.Of past) (source : String) (line : Nat) {marker : Marker}
    (hgoes : (waits.observe source line marker).stop = none) :
    (waits.observe source line marker).state.Of (past ++ [marker]) := by
  cases marker with
  | waiting cycle wait =>
      obtain ⟨hknown, hfits⟩ := (WaitSums.stop_waiting source line cycle wait waits).mp hgoes
      intro c hc
      rw [WaitSums.getElem_waiting source line cycle wait waits hknown hfits, hsums c hc,
        waitsOf_concat, List.sum_append]
      by_cases hsame : cycle = c
      · simp [Marker.waitOf, hsame]
      · simp [Marker.waitOf, hsame]
  | _ =>
      intro c hc
      rw [WaitSums.observe_other source line (fun _ => rfl), waitsOf_concat]
      simpa [Marker.waitOf] using hsums c hc

/-- The accumulator of waits follows the rule on waits, with the sums that
    belong to the markers as its state. -/
theorem follows_waits (source : String) (cycles : Nat) :
    Follows (WaitSums.observe source) (WaitSums.zero cycles) (WaitsFit cycles)
      WaitSums.Of where
  good_nil := waitsFit_nil cycles
  inv_nil := by
    intro cycle h
    show (Vector.replicate cycles (0 : Int))[cycle] = 0
    rw [Vector.getElem_replicate]
  good_of_concat := WaitsFit.of_concat
  stop_iff := by
    intro past waits hgood hsums line marker
    cases marker with
    | waiting cycle wait =>
        rw [WaitSums.stop_waiting, waitsFit_concat_waiting hgood]
        constructor
        · rintro ⟨hknown, hfits⟩
          rw [hsums cycle hknown] at hfits
          exact ⟨hknown, hfits⟩
        · rintro ⟨hknown, hfits⟩
          refine ⟨hknown, ?_⟩
          rw [hsums cycle hknown]
          exact hfits
    | _ => exact ⟨fun _ => waitsFit_concat_other hgood fun _ => rfl, fun _ => rfl⟩
  inv_concat := by
    intro past waits hsums line marker hgood
    refine hsums.observe source line ?_
    cases marker with
    | waiting cycle wait =>
        obtain ⟨hknown, hfits⟩ := (waitsFit_concat_waiting hgood.of_concat cycle wait).mp hgood
        rw [← hsums cycle hknown] at hfits
        exact (WaitSums.stop_waiting source line cycle wait waits).mpr ⟨hknown, hfits⟩
    | _ => rfl

/-- **WAIT SUMS**: a log has wait sums exactly if it is readable and its waits
    keep the rule; there is one sum for each cycle, that of its waits. -/
theorem sumWaits_eq_ok_iff (source : String) (cycles : Nat) (log : LogContent)
    (sums : List Int) :
    sumWaits source cycles log = .ok sums
      ↔ (log.Readable ∧ WaitsFit cycles log.markers)
        ∧ sums = (List.range cycles).map fun cycle => (waitsOf cycle log.markers).sum := by
  obtain ⟨hstop, hinv⟩ := (follows_waits source cycles).completes_log (Failure.ofLine source) log
  simp only [sumWaits]
  generalize scan (Failure.ofLine source) (WaitSums.observe source) log.findings
    (WaitSums.zero cycles) = summed at hstop hinv ⊢
  obtain ⟨waits, stop⟩ := summed
  rw [← hstop]
  cases stop with
  | some failure => simp
  | none =>
      have hlist : waits.sums.toList
          = (List.range cycles).map fun cycle => (waitsOf cycle log.markers).sum := by
        refine List.ext_getElem (by simp) ?_
        intro c hc _
        have hsum := hinv rfl c (by simpa using hc)
        simpa using hsum
      show Except.ok waits.sums.toList = Except.ok sums ↔ _
      rw [hlist]
      simp [eq_comm]

/-! ## All participants -/

/-- One more list of waits is added entry by entry; where it is too short it
    counts as zero, and where it is too long it does not count. -/
theorem getElem?_addWaits (totals waits : List Int) (cycle : Nat) :
    (addWaits totals waits)[cycle]? = totals[cycle]?.map (· + waits[cycle]?.getD 0) := by
  fun_induction addWaits totals waits generalizing cycle with
  | case1 waits => simp
  | case2 totals hne => simp
  | case3 total totals wait waits ih =>
      cases cycle with
      | zero => simp
      | succ cycle => simpa using ih cycle

/-- The totals after some lists of waits, entry by entry. -/
theorem getElem?_totals (lists : List (List Int)) (start : WaitTotals) (cycle : Nat) :
    (lists.foldl WaitTotals.add start).totals[cycle]?
      = start.totals[cycle]?.map (· + (lists.map fun waits => waits[cycle]?.getD 0).sum) := by
  induction lists generalizing start with
  | nil => simp
  | cons waits rest ih =>
      rw [List.foldl_cons, ih]
      show (addWaits start.totals waits)[cycle]?.map _ = _
      rw [getElem?_addWaits, Option.map_map]
      congr 1
      funext total
      show total + waits[cycle]?.getD 0 + _ = total + _
      rw [List.map_cons, List.sum_cons, Int.add_assoc]

/-- Every list of waits counts as one participant. -/
theorem participants_foldl (lists : List (List Int)) (start : WaitTotals) :
    (lists.foldl WaitTotals.add start).participants = start.participants + lists.length := by
  induction lists generalizing start with
  | nil => rfl
  | cons waits rest ih =>
      rw [List.foldl_cons, ih, List.length_cons]
      show start.participants + 1 + rest.length = _
      omega

/-- The totals after some lists of waits, one after the other. -/
def WaitTotals.ofLists (cycles : Nat) (lists : List (List Int)) : WaitTotals :=
  lists.foldl WaitTotals.add (WaitTotals.zero cycles)

/-- What the lists have in one place; those that are too short have nothing. -/
def waitsInPlace (cycle : Nat) (lists : List (List Int)) : List Int :=
  lists.filterMap (·[cycle]?)

/-- A list that is too short adds as much as a zero in its place would. -/
theorem sum_waitsInPlace (cycle : Nat) (lists : List (List Int)) :
    (waitsInPlace cycle lists).sum = (lists.map fun waits => waits[cycle]?.getD 0).sum := by
  induction lists with
  | nil => rfl
  | cons waits rest ih =>
      simp only [waitsInPlace] at ih ⊢
      rw [List.filterMap_cons, List.map_cons, List.sum_cons, ← ih]
      cases waits[cycle]? with
      | none => exact (Int.zero_add _).symm
      | some wait => exact List.sum_cons

/-- **TOTALS**: there are as many totals as cycles, and each is the sum of what
    the lists have in its place. -/
theorem totals_of_lists (cycles : Nat) (lists : List (List Int)) :
    (WaitTotals.ofLists cycles lists).totals
      = (List.range cycles).map fun cycle => (waitsInPlace cycle lists).sum := by
  refine List.ext_getElem? fun cycle => ?_
  simp only [WaitTotals.ofLists]
  rw [getElem?_totals, ← sum_waitsInPlace, List.getElem?_map]
  show (List.replicate cycles (0 : Int))[cycle]?.map _ = _
  by_cases hcycle : cycle < cycles
  · rw [List.getElem?_replicate, if_pos hcycle, List.getElem?_range hcycle]
    exact congrArg some (Int.zero_add _)
  · rw [List.getElem?_replicate, if_neg hcycle,
      List.getElem?_eq_none (by rw [List.length_range]; omega)]
    rfl

/-- Every list counts, however short. -/
theorem participants_of_lists (cycles : Nat) (lists : List (List Int)) :
    (WaitTotals.ofLists cycles lists).participants = lists.length := by
  simp only [WaitTotals.ofLists]
  rw [participants_foldl]
  exact Nat.zero_add _

end RunTimings
