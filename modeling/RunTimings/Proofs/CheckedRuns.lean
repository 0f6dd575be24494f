import RunTimings.Proofs.CheckedScans
import RunTimings.Proofs.StepLogs
import RunTimings.Proofs.WaitRuns
import RunTimings.Proofs.BoundRuns

/-! # Checked runs — no log makes a slot missing or a number overflow

    Each accumulator is written down once more with a check at every slot that
    it reads or writes and at every number that it computes.  What makes the
    checks superfluous is not visible where the operations stand:

    * an interval is open since a timestamp without a sign, so every sample fits
      64 bits (`StepTracker.Ranged`), and less than `2 ^ 64` samples add up within
      128 bits (`ManySigned64`);
    * a cycle is compared with the number of cycles before its slot is used;
    * a duration is taken of positive timestamps only.

    `checks_never_fail` puts the three accumulators and the totals over all
    participants together: the checked runs come out as the plain ones. -/

namespace RunTimings

/-! ## Sums of 64-bit numbers -/

/-- The number fits 128 bits with a sign. -/
abbrev Signed128 (n : Int) : Prop :=
  -0x80000000000000000000000000000000 ≤ n ∧ n < 0x80000000000000000000000000000000

/-- The number is within what so many signed 64-bit numbers can add up to. -/
def ManySigned64 (count : Nat) (sum : Int) : Prop :=
  -(count * 0x8000000000000000) ≤ sum ∧ sum ≤ count * 0x8000000000000000

/-- One more 64-bit number. -/
theorem ManySigned64.add {count : Nat} {sum n : Int} (h : ManySigned64 count sum)
    (hn : Signed64 n) : ManySigned64 (count + 1) (sum + n) := by
  obtain ⟨hlow, hhigh⟩ := h
  obtain ⟨hn, hn'⟩ := hn
  constructor <;> push_cast <;> omega

theorem ManySigned64.mono {count more : Nat} {sum : Int} (h : ManySigned64 count sum)
    (hle : count ≤ more) : ManySigned64 more sum := by
  obtain ⟨hlow, hhigh⟩ := h
  constructor <;> omega

/-- Less than `2 ^ 64` numbers of 64 bits stay within 128 bits. -/
theorem ManySigned64.signed128 {count : Nat} {sum : Int} (h : ManySigned64 count sum)
    (hcount : Unsigned64 count) : Signed128 sum := by
  obtain ⟨hlow, hhigh⟩ := h
  constructor <;> omega

/-- The sum of some numbers from left to right, each intermediate one checked. -/
def checkedSum (sum : Int) (numbers : List Int) : Except CutOff Int :=
  numbers.foldlM (fun sum n => fit Signed128 (sum + n)) sum

/-- No intermediate sum of less than `2 ^ 64` numbers is out of range. -/
theorem checkedSum_eq {count : Nat} {sum : Int} (h : ManySigned64 count sum)
    {numbers : List Int} (hnumbers : ∀ n ∈ numbers, Signed64 n)
    (hcount : Unsigned64 (count + numbers.length)) :
    checkedSum sum numbers = .ok (sum + numbers.sum) := by
  induction numbers generalizing count sum with
  | nil =>
      rw [List.sum_nil, Int.add_zero]
      rfl
  | cons n rest ih =>
      rw [List.forall_mem_cons] at hnumbers
      rw [List.length_cons] at hcount
      have hnext := h.add hnumbers.1
      have hfits : Signed128 (sum + n) := hnext.signed128 (by omega)
      simp only [checkedSum]
      rw [List.foldlM_cons, fit_of hfits]
      show checkedSum (sum + n) rest = _
      rw [ih hnext hnumbers.2 (by omega), List.sum_cons, Int.add_assoc]

/-! ## Steps -/

/-- An end marker, the sample checked. -/
def StepTrack.onEndChecked (timestamp : Int) (track : StepTrack) :
    Except CutOff (StepTrack × Option Problem) :=
  match track.opened with
  | none => .ok (track, some .endWithoutBegin)
  | some start => do
    let duration ← fit Signed64 (timestamp - start)
    return (⟨none, duration :: track.latestFirst⟩,
      if duration < 0 then some (.negativeDuration duration) else none)

/-- A change of one step's pairing, whose slot is looked up by the number of the
    step. -/
def StepTracker.changeChecked (tracker : StepTracker) (line step : Nat)
    (onTrack : StepTrack → Except CutOff (StepTrack × Option Problem)) :
    Except CutOff StepTracker := do
  let (track, problem) ← onTrack (← fetch tracker.tracks step)
  let tracks ← store tracker.tracks step track
  return { tracker with
    tracks := tracks
    latestFirst :=
      (problem.map (Diagnostic.mk tracker.source line step)).toList ++ tracker.latestFirst }

/-- Takes notice of a marker, with all checks. -/
def StepTracker.observeChecked (line : Nat) (marker : Marker) (tracker : StepTracker) :
    Except CutOff StepTracker :=
  match marker with
  | .beginStep step timestamp =>
      tracker.changeChecked line step.val fun track => .ok (track.onBegin timestamp)
  | .endStep step timestamp =>
      tracker.changeChecked line step.val (StepTrack.onEndChecked timestamp)
  | .startCycle _ _ => .ok tracker
  | .endId _ _ => .ok tracker
  | .waiting _ _ => .ok tracker

/-- The mean of some samples, their sum checked. -/
def checkedMean (samples : List Int) : Except CutOff (Option Float) :=
  if samples = [] then .ok none
  else (checkedSum 0 samples).map fun sum => some (quotient sum samples.length)

/-- The pairing of a log's step markers, with all checks. -/
def trackStepsChecked (source : String) (log : LogContent) : Except CutOff StepTracker :=
  checkedScan source StepTracker.observeChecked log.findings { source }

/-- The numbers that a track can hold: its interval is open since some timestamp,
    and its samples fit 64 bits. -/
structure StepTrack.Ranged (track : StepTrack) : Prop where
  opened : ∀ start, track.opened = some start → IsTime start
  samples : ∀ sample ∈ track.samples, Signed64 sample

theorem StepTrack.Ranged.onBegin {track : StepTrack} (h : track.Ranged) {timestamp : Int}
    (htime : IsTime timestamp) : (track.onBegin timestamp).1.Ranged := by
  refine ⟨?_, h.samples⟩
  intro start hopen
  rw [← Option.some.inj hopen]
  exact htime

theorem StepTrack.Ranged.onEnd {track : StepTrack} (h : track.Ranged) {timestamp : Int}
    (htime : IsTime timestamp) : (track.onEnd timestamp).1.Ranged := by
  refine ⟨?_, ?_⟩
  · intro start hopen
    rw [opened_onEnd] at hopen
    cases hopen
  · intro sample hsample
    rw [samples_onEnd] at hsample
    rcases List.mem_append.mp hsample with hold | hnew
    · exact h.samples sample hold
    · obtain ⟨start, hopen, rfl⟩ := Option.map_eq_some_iff.mp (Option.mem_toList.mp hnew)
      exact htime.sub (h.opened start hopen)

/-- The sample of an end is within range if the track is. -/
theorem StepTrack.Ranged.onEndChecked {track : StepTrack} (h : track.Ranged) {timestamp : Int}
    (htime : IsTime timestamp) : track.onEndChecked timestamp = .ok (track.onEnd timestamp) := by
  simp only [StepTrack.onEndChecked, StepTrack.onEnd]
  cases hopen : track.opened with
  | none => rfl
  | some start =>
      show (fit Signed64 (timestamp - start)).bind _ = _
      rw [fit_of (htime.sub (h.opened start hopen))]
      rfl

-- one negative timestamp would be enough to break the difference
example : StepTrack.onEndChecked 0x7fffffffffffffff ⟨some (-1), []⟩
    = .error (.doesNotFit 0x8000000000000000) := rfl

/-- The tracks of a tracker are all ranged. -/
def StepTracker.Ranged (tracker : StepTracker) : Prop :=
  ∀ step, (tracker.tracks.get step).Ranged

/-- Every step has its slot, so only what happens in the slot can be cut short. -/
theorem StepTracker.changeChecked_eq (tracker : StepTracker) (line : Nat) (step : StepIndex)
    (checked : StepTrack → Except CutOff (StepTrack × Option Problem))
    (onTrack : StepTrack → StepTrack × Option Problem)
    (h : checked (tracker.tracks.get step) = .ok (onTrack (tracker.tracks.get step))) :
    tracker.changeChecked line step.val checked = .ok (tracker.change line step onTrack) := by
  simp only [StepTracker.changeChecked]
  rw [fetch_of_lt _ step.isLt]
  show (checked (tracker.tracks.get step)).bind _ = _
  rw [h]
  show (store tracker.tracks step.val (onTrack (tracker.tracks.get step)).1).bind _ = _
  rw [store_of_lt _ _ step.isLt]
  rfl

theorem StepTracker.Ranged.change {tracker : StepTracker} (h : tracker.Ranged) (line : Nat)
    (changed : StepIndex) {onTrack : StepTrack → StepTrack × Option Problem}
    (hchanged : (onTrack (tracker.tracks.get changed)).1.Ranged) :
    (tracker.change line changed onTrack).Ranged := by
  intro step
  rw [StepTracker.get_change]
  by_cases hs : changed = step
  · rw [if_pos hs, ← hs]
    exact hchanged
  · rw [if_neg hs]
    exact h step

/-- The checked tracker keeps pace: what it holds is ranged, marker by marker. -/
theorem keepsPace_tracker :
    KeepsPace StepTracker.observeChecked (fun line marker tracker =>
      ⟨tracker.observe line marker, none⟩) StepTracker.Ranged where
  agrees := by
    intro line marker tracker h hsound
    cases marker with
    | beginStep step timestamp => exact tracker.changeChecked_eq line step _ (StepTrack.onBegin timestamp) rfl
    | endStep step timestamp =>
        exact tracker.changeChecked_eq line step _ _ ((h step).onEndChecked hsound)
    | _ => rfl
  keeps := by
    intro line marker tracker h hsound
    cases marker with
    | beginStep step timestamp => exact h.change line step ((h step).onBegin hsound)
    | endStep step timestamp => exact h.change line step ((h step).onEnd hsound)
    | _ => exact h

/-- The mean of less than `2 ^ 64` samples of 64 bits. -/
theorem checkedMean_eq {samples : List Int} (h : ∀ sample ∈ samples, Signed64 sample)
    (hcount : Unsigned64 samples.length) : checkedMean samples = .ok (mean samples) := by
  simp only [checkedMean, mean]
  by_cases hnone : samples = []
  · rw [if_pos hnone, if_pos hnone]
  · have hzero : ManySigned64 0 0 := ⟨by omega, by omega⟩
    rw [if_neg hnone, if_neg hnone, checkedSum_eq hzero h (by omega), Int.zero_add]
    rfl

/-- A tracker that no line has touched is ranged. -/
theorem ranged_start (source : String) : StepTracker.Ranged { source } := by
  intro step
  show ((PerStep.ofFn fun _ => ({} : StepTrack)).get step).Ranged
  rw [PerStep.get_ofFn]
  refine ⟨?_, ?_⟩
  · intro start hopen
    cases hopen
  · intro sample hsample
    cases hsample

/-- **STEPS**: the pairing of a log comes out the same with all checks, and so do
    the means of less than `2 ^ 64` samples that it has taken. -/
theorem trackStepsChecked_eq (source : String) (log : LogContent) :
    trackStepsChecked source log = (trackSteps source log).outcome.mapError .refused
      ∧ ∀ step, Unsigned64 ((trackSteps source log).state.tracks.get step).samples.length →
        checkedMean ((trackSteps source log).state.tracks.get step).samples
          = .ok (mean ((trackSteps source log).state.tracks.get step).samples) := by
  obtain ⟨hscan, hranged⟩ := keepsPace_tracker.scan_log source log (ranged_start source)
  rw [← trackSteps_eq] at hscan hranged
  exact ⟨hscan, fun step hcount => checkedMean_eq (hranged step).samples hcount⟩

/-! ## Waits -/

/-- Adds a wait to its cycle, with all checks; an unknown cycle and a total out of
    range are refused. -/
def WaitSums.observeChecked {cycles : Nat} (source : String) (line : Nat) (marker : Marker)
    (waits : WaitSums cycles) : Except CutOff (WaitSums cycles) :=
  match marker with
  | .waiting cycle wait =>
    if cycle < cycles then do
      let sum ← fetch waits.sums cycle
      if Signed64 (sum + wait) then return ⟨← store waits.sums cycle (sum + wait)⟩
      else throw (.refused (.waitOverflow source line cycle))
    else throw (.refused (.cycleOutOfRange source line cycle cycles))
  | .beginStep _ _ => .ok waits
  | .endStep _ _ => .ok waits
  | .startCycle _ _ => .ok waits
  | .endId _ _ => .ok waits

/-- The waits of a participant's log, with all checks. -/
def sumWaitsChecked (source : String) (cycles : Nat) (log : LogContent) :
    Except CutOff (List Int) :=
  (checkedScan source (WaitSums.observeChecked source) log.findings (WaitSums.zero cycles)).map
    (·.sums.toList)

/-- The checked accumulator of waits keeps pace: a cycle whose slot is used has
    been compared with the number of cycles. -/
theorem keepsPace_waits (source : String) (cycles : Nat) :
    KeepsPace (WaitSums.observeChecked source) (@WaitSums.observe cycles source)
      fun _ => True where
  agrees := by
    intro line marker waits _ _
    cases marker with
    | waiting cycle wait =>
        rw [WaitSums.observe_waiting]
        simp only [WaitSums.observeChecked]
        by_cases hknown : cycle < cycles
        · rw [if_pos hknown, dif_pos hknown, fetch_of_lt _ hknown]
          show (if Signed64 (waits.sums[cycle] + wait) then _ else _) = _
          by_cases hfits : Signed64 (waits.sums[cycle] + wait)
          · rw [if_pos hfits, if_pos hfits, store_of_lt _ _ hknown]
            rfl
          · rw [if_neg hfits, if_neg hfits]
            rfl
        · rw [if_neg hknown, dif_neg hknown]
          rfl
    | _ => rfl
  keeps := fun _ _ _ _ _ => trivial

/-- **WAITS**: a participant's log has the same waits with all checks. -/
theorem sumWaitsChecked_eq (source : String) (cycles : Nat) (log : LogContent) :
    sumWaitsChecked source cycles log = (sumWaits source cycles log).mapError .refused := by
  simp only [sumWaitsChecked, sumWaits]
  rw [((keepsPace_waits source cycles).scan_log source log trivial).1]
  generalize scan (Failure.ofLine source) (WaitSums.observe source) log.findings
    (WaitSums.zero cycles) = summed
  obtain ⟨waits, stop⟩ := summed
  cases stop with
  | some failure => rfl
  | none => rfl

/-! ## Durations -/

/-- Notes a timestamp in a column of bounds, with all checks; an unknown cycle is
    refused. -/
def noteChecked {cycles : Nat} (source : String) (line : Nat)
    (column : Vector (Option Int) cycles) (cycle : Nat) (timestamp : Int) :
    Except CutOff (Vector (Option Int) cycles) :=
  if cycle < cycles then store column cycle (some timestamp)
  else throw (.refused (.cycleOutOfRange source line cycle cycles))

/-- Notes a start or an end, with all checks. -/
def CycleBounds.observeChecked {cycles : Nat} (source : String) (line : Nat) (marker : Marker)
    (bounds : CycleBounds cycles) : Except CutOff (CycleBounds cycles) :=
  match marker with
  | .startCycle cycle timestamp =>
      (noteChecked source line bounds.starts cycle timestamp).map fun starts =>
        { bounds with starts := starts }
  | .endId cycle timestamp =>
      (noteChecked source line bounds.finishes cycle timestamp).map fun finishes =>
        { bounds with finishes := finishes }
  | .beginStep _ _ => .ok bounds
  | .endStep _ _ => .ok bounds
  | .waiting _ _ => .ok bounds

/-- The time from the start to the end of a cycle, the difference checked. -/
def cycleDurationChecked (source : String) (cycle : Nat) (start finish : Option Int) :
    Except CutOff Int :=
  match usable start, usable finish with
  | none, _ => .error (.refused (.missingBound source cycle .start))
  | some _, none => .error (.refused (.missingBound source cycle .finish))
  | some start, some finish => fit Signed64 (finish - start)

/-- The durations of all cycles, with all checks. -/
def CycleBounds.durationsChecked {cycles : Nat} (source : String) (bounds : CycleBounds cycles) :
    Except CutOff (List Int) :=
  (List.finRange cycles).mapM fun (cycle : Fin cycles) => do
    cycleDurationChecked source cycle (← fetch bounds.starts cycle) (← fetch bounds.finishes cycle)

/-- The durations of all cycles, from the asker's log, with all checks. -/
def measureCyclesChecked (source : String) (cycles : Nat) (log : LogContent) :
    Except CutOff (List Int) :=
  (checkedScan source (CycleBounds.observeChecked source) log.findings
    (CycleBounds.unset cycles)).bind (CycleBounds.durationsChecked source)

/-- The bounds are timestamps as a log brings them. -/
def CycleBounds.Ranged {cycles : Nat} (bounds : CycleBounds cycles) : Prop :=
  ∀ bound cycle t, (h : cycle < cycles) → (bounds.times bound)[cycle] = some t → IsTime t

/-- A checked column takes a timestamp as a plain one does: its slot is used only
    after its cycle has been compared with the number of cycles. -/
theorem noteChecked_map {cycles : Nat} (source : String) (line : Nat) (bounds : CycleBounds cycles)
    (column : Vector (Option Int) cycles) (cycle : Nat) (timestamp : Int)
    (make : Vector (Option Int) cycles → CycleBounds cycles) :
    (noteChecked source line column cycle timestamp).map make
      = (if known : cycle < cycles then
          (⟨make (column.set cycle (some timestamp) known), none⟩ :
            Progress (CycleBounds cycles) Failure)
        else ⟨bounds, some (.cycleOutOfRange source line cycle cycles)⟩).outcome.mapError
          .refused := by
  simp only [noteChecked]
  by_cases hknown : cycle < cycles
  · rw [if_pos hknown, dif_pos hknown, store_of_lt _ _ hknown]
    rfl
  · rw [if_neg hknown, dif_neg hknown]
    rfl

/-- What a sound marker gives as a bound is a timestamp. -/
theorem Marker.Sound.isTime_of_boundOf {marker : Marker} (h : marker.Sound) {bound : CycleBound}
    {cycle : Nat} {t : Int} (hbound : marker.boundOf bound cycle = some t) : IsTime t := by
  have hnumber := Marker.number_of_boundOf hbound
  cases marker with
  | startCycle c timestamp => exact hnumber ▸ h
  | endId c timestamp => exact hnumber ▸ h
  | _ => cases hbound

/-- The checked table of bounds keeps pace: it is filled with timestamps only. -/
theorem keepsPace_bounds (source : String) (cycles : Nat) :
    KeepsPace (CycleBounds.observeChecked source) (@CycleBounds.observe cycles source)
      CycleBounds.Ranged where
  agrees := by
    intro line marker bounds _ _
    cases marker with
    | startCycle cycle timestamp => exact noteChecked_map source line bounds _ cycle timestamp _
    | endId cycle timestamp => exact noteChecked_map source line bounds _ cycle timestamp _
    | _ => rfl
  keeps := by
    intro line marker bounds h hsound bound c t hc hget
    by_cases hknown : marker.BoundKnown cycles
    · rw [CycleBounds.times_observe source line marker bounds hknown, Option.or_eq_some_iff] at hget
      rcases hget with hnew | ⟨-, hold⟩
      · exact hsound.isTime_of_boundOf hnew
      · exact h bound c t hc hold
    · rw [CycleBounds.state_of_unknown source line bounds hknown] at hget
      exact h bound c t hc hget

/-- The difference of two positive timestamps fits. -/
theorem cycleDurationChecked_eq (source : String) (cycle : Nat) {start finish : Option Int}
    (hstart : ∀ t, start = some t → IsTime t) (hfinish : ∀ t, finish = some t → IsTime t) :
    cycleDurationChecked source cycle start finish
      = (cycleDuration source cycle start finish).mapError .refused := by
  have husable : ∀ {timestamp : Option Int} {t : Int}, usable timestamp = some t →
      timestamp = some t := fun h => (Option.filter_eq_some_iff.mp h).1
  simp only [cycleDurationChecked, cycleDuration]
  cases hfirst : usable start with
  | none => rfl
  | some first =>
      cases hlast : usable finish with
      | none => rfl
      | some last =>
          exact fit_of ((hfinish last (husable hlast)).sub (hstart first (husable hfirst)))

theorem CycleBounds.Ranged.durationsChecked {cycles : Nat} {bounds : CycleBounds cycles}
    (h : bounds.Ranged) (source : String) :
    bounds.durationsChecked source = (bounds.durations source).mapError .refused := by
  refine mapM_mapError _ ?_
  intro cycle
  show (fetch bounds.starts cycle.val).bind (fun start => (fetch bounds.finishes cycle.val).bind
    fun finish => cycleDurationChecked source cycle.val start finish) = _
  rw [fetch_of_lt _ cycle.isLt, fetch_of_lt _ cycle.isLt]
  exact cycleDurationChecked_eq source cycle.val (fun t => h .start cycle.val t cycle.isLt)
    fun t => h .finish cycle.val t cycle.isLt

/-- **DURATIONS**: the asker's log has the same durations with all checks. -/
theorem measureCyclesChecked_eq (source : String) (cycles : Nat) (log : LogContent) :
    measureCyclesChecked source cycles log
      = (measureCycles source cycles log).mapError .refused := by
  have hunset : (CycleBounds.unset cycles).Ranged := by
    intro bound cycle t h hget
    rw [(follows_bounds source cycles).inv_nil bound cycle h] at hget
    cases hget
  obtain ⟨hscan, hranged⟩ := (keepsPace_bounds source cycles).scan_log source log hunset
  simp only [measureCyclesChecked, measureCycles]
  rw [hscan]
  generalize scan (Failure.ofLine source) (CycleBounds.observe source) log.findings
    (CycleBounds.unset cycles) = bounded at hranged ⊢
  obtain ⟨bounds, stop⟩ := bounded
  cases stop with
  | some failure => rfl
  | none => exact hranged.durationsChecked source

/-! ## Totals over all participants -/

/-- Adds each wait to the total in its place, every total checked. -/
def addWaitsChecked : List Int → List Int → Except CutOff (List Int)
  | [], _ => .ok []
  | totals, [] => .ok totals
  | total :: totals, wait :: waits => do
    let sum ← fit Signed128 (total + wait)
    return sum :: (← addWaitsChecked totals waits)

/-- One more participant, with all checks. -/
def WaitTotals.addChecked (sum : WaitTotals) (waits : List Int) : Except CutOff WaitTotals :=
  (addWaitsChecked sum.totals waits).map fun totals => ⟨totals, sum.participants + 1⟩

/-- One more list of 64-bit waits leaves the totals within 128 bits. -/
theorem addWaitsChecked_eq {count : Nat} (hcount : Unsigned64 (count + 1))
    (totals waits : List Int) (htotals : ∀ total ∈ totals, ManySigned64 count total)
    (hwaits : ∀ wait ∈ waits, Signed64 wait) :
    addWaitsChecked totals waits = .ok (addWaits totals waits)
      ∧ ∀ total ∈ addWaits totals waits, ManySigned64 (count + 1) total := by
  fun_induction addWaits totals waits with
  | case1 waits =>
      refine ⟨rfl, ?_⟩
      intro total hmem
      cases hmem
  | case2 totals hne =>
      refine ⟨?_, fun total hmem => (htotals total hmem).mono (Nat.le_succ _)⟩
      cases totals with
      | nil => rfl
      | cons total totals => rfl
  | case3 total totals wait waits ih =>
      rw [List.forall_mem_cons] at htotals hwaits
      obtain ⟨hrest, hbounds⟩ := ih htotals.2 hwaits.2
      have hsum := htotals.1.add hwaits.1
      refine ⟨?_, List.forall_mem_cons.mpr ⟨hsum, hbounds⟩⟩
      rw [addWaitsChecked, fit_of (hsum.signed128 hcount), hrest]
      rfl

/-- The totals over less than `2 ^ 64` participants, one after the other. -/
theorem foldlM_addChecked {count : Nat} (participants : List (List Int)) (sum : WaitTotals)
    (hcount : Unsigned64 (count + participants.length))
    (hsum : ∀ total ∈ sum.totals, ManySigned64 count total)
    (hwaits : ∀ waits ∈ participants, ∀ wait ∈ waits, Signed64 wait) :
    participants.foldlM WaitTotals.addChecked sum
      = .ok (participants.foldl WaitTotals.add sum) := by
  induction participants generalizing count sum with
  | nil => rfl
  | cons waits rest ih =>
      rw [List.forall_mem_cons] at hwaits
      rw [List.length_cons] at hcount
      obtain ⟨hadd, hbounds⟩ := addWaitsChecked_eq (by omega) sum.totals waits hsum hwaits.1
      have hchecked : sum.addChecked waits = .ok (sum.add waits) := by
        simp only [WaitTotals.addChecked]
        rw [hadd]
        rfl
      rw [List.foldlM_cons, hchecked]
      exact ih (sum.add waits) (by omega) hbounds hwaits.2

/-- The waits of a participant fit 64 bits. -/
theorem signed64_of_sumWaits {source : String} {cycles : Nat} {log : LogContent}
    {sums : List Int} (h : sumWaits source cycles log = .ok sums) :
    ∀ wait ∈ sums, Signed64 wait := by
  obtain ⟨⟨-, hfits⟩, rfl⟩ := (sumWaits_eq_ok_iff source cycles log sums).mp h
  intro wait hwait
  obtain ⟨cycle, -, rfl⟩ := List.mem_map.mp hwait
  exact hfits.bounded cycle _ (List.prefix_refl _)

/-- Less than `2 ^ 64` lists of 64-bit waits have the same totals with all checks. -/
theorem foldlM_addChecked_zero (cycles : Nat) (lists : List (List Int))
    (hcount : Unsigned64 lists.length) (hwaits : ∀ waits ∈ lists, ∀ wait ∈ waits, Signed64 wait) :
    lists.foldlM WaitTotals.addChecked (WaitTotals.zero cycles)
      = .ok (lists.foldl WaitTotals.add (WaitTotals.zero cycles)) := by
  have hzero : ∀ total ∈ (WaitTotals.zero cycles).totals, ManySigned64 0 total := by
    intro total hmem
    rw [List.eq_of_mem_replicate hmem]
    exact ⟨by omega, by omega⟩
  exact foldlM_addChecked lists _ (by omega) hzero hwaits

/-- **TOTALS**: the waits of less than `2 ^ 64` participants have the same totals
    with all checks. -/
theorem totalsChecked_eq (cycles : Nat) (participants : List (List Int))
    (hwaits : ∀ waits ∈ participants, ∃ source log, sumWaits source cycles log = .ok waits)
    (hcount : Unsigned64 participants.length) :
    participants.foldlM WaitTotals.addChecked (WaitTotals.zero cycles)
      = .ok (participants.foldl WaitTotals.add (WaitTotals.zero cycles)) := by
  refine foldlM_addChecked_zero cycles participants hcount ?_
  intro waits hmem
  obtain ⟨source, log, hsums⟩ := hwaits waits hmem
  exact signed64_of_sumWaits hsums

/-! ## All together -/

/-- **NO LOG OVERFLOWS**: the numbers that a log brings are in their ranges, and
    with a check at every slot and every number the pairing, the means, the waits,
    the durations and the totals come out as without: no slot is missing, and no
    number is out of range where samples and participants are less than `2 ^ 64`. -/
theorem checks_never_fail (source : String) (cycles : Nat) (log : LogContent) :
    (∀ line marker, ⟨line, .ok marker⟩ ∈ log.findings → Marker.Sound marker)
      ∧ trackStepsChecked source log = (trackSteps source log).outcome.mapError .refused
      ∧ (∀ step, Unsigned64 ((trackSteps source log).state.tracks.get step).samples.length →
        checkedMean ((trackSteps source log).state.tracks.get step).samples
          = .ok (mean ((trackSteps source log).state.tracks.get step).samples))
      ∧ sumWaitsChecked source cycles log = (sumWaits source cycles log).mapError .refused
      ∧ measureCyclesChecked source cycles log
        = (measureCycles source cycles log).mapError .refused
      ∧ ∀ participants : List (List Int),
        (∀ waits ∈ participants, ∃ path file, sumWaits path cycles file = .ok waits) →
        Unsigned64 participants.length →
        participants.foldlM WaitTotals.addChecked (WaitTotals.zero cycles)
          = .ok (participants.foldl WaitTotals.add (WaitTotals.zero cycles)) := by
  obtain ⟨htracked, hmeans⟩ := trackStepsChecked_eq source log
  refine ⟨fun line marker => sound_of_found, htracked, hmeans, ?_, ?_, ?_⟩
  · exact sumWaitsChecked_eq source cycles log
  · exact measureCyclesChecked_eq source cycles log
  · exact totalsChecked_eq cycles

end RunTimings
