import RunTimings.Proofs.BoundRuns
import RunTimings.Proofs.ScanContinuation
import RunTimings.Proofs.WaitRuns

/-! # Refused events — accumulators that are used further

    A scan ends at the first refusal.  The accumulators of waits and of bounds
    do not rely on that: after a refusal they can be shown further events, and
    what they hold is what they would hold if the refused ones had never come.

    * `accepted` are the markers of a run that are not refused, each judged in
      the state that the whole run before it has left behind.
    * `Follows.ongoing` — a visitor that keeps its state when it refuses obeys
      its rule on the accepted markers, in a state that belongs to them.  The
      induction over the run is here, once.
    * `fitting` says which waits of a cycle are accepted by these waits alone;
      `waitsOf_accepted` finds the same in the run.
    * `refused_waits_leave_no_trace` and `refused_bounds_leave_no_trace` — what
      is refused and why, and what is held after any run. -/

namespace RunTimings

/-! ## Visitors that go on after a refusal -/

section Visitors

variable {σ ε : Type}

/-- The marker of an event, unless it is refused by a visitor that has been shown
    all events before it. -/
def acceptedOf (visit : Nat → Marker → σ → Progress σ ε) (start : σ) :
    List (Nat × Marker) × (Nat × Marker) → Option Marker
  | (past, (line, marker)) =>
      match (visit line marker (stateAfter visit start past)).stop with
      | none => some marker
      | some _ => none

/-- The markers of a run that are not refused. -/
def accepted (visit : Nat → Marker → σ → Progress σ ε) (start : σ)
    (events : List (Nat × Marker)) : List Marker :=
  (withPast events).filterMap (acceptedOf visit start)

variable {visit : Nat → Marker → σ → Progress σ ε} {start : σ}

theorem accepted_concat (past : List (Nat × Marker)) (event : Nat × Marker) :
    accepted visit start (past ++ [event])
      = accepted visit start past ++ (acceptedOf visit start (past, event)).toList := by
  simp only [accepted]
  rw [withPast_concat, List.filterMap_append]
  cases h : acceptedOf visit start (past, event) with
  | none => simp [h]
  | some marker => simp [h]

theorem acceptedOf_eq_some {past : List (Nat × Marker)} {line : Nat} {marker : Marker}
    (h : (visit line marker (stateAfter visit start past)).stop = none) :
    acceptedOf visit start (past, (line, marker)) = some marker := by
  simp only [acceptedOf]
  rw [h]

theorem acceptedOf_eq_none {past : List (Nat × Marker)} {line : Nat} {marker : Marker}
    {reason : ε} (h : (visit line marker (stateAfter visit start past)).stop = some reason) :
    acceptedOf visit start (past, (line, marker)) = none := by
  simp only [acceptedOf]
  rw [h]

/-- A visitor that is not changed by what it refuses. -/
def KeepsRefusing (visit : Nat → Marker → σ → Progress σ ε) : Prop :=
  ∀ line marker state reason, (visit line marker state).stop = some reason →
    (visit line marker state).state = state

/-- **GOING ON**: a visitor that follows a rule, and is not changed by what it
    refuses, has after any run accepted markers that the rule admits, and is in
    a state that belongs to them. -/
theorem Follows.ongoing {Good : List Marker → Prop} {Inv : List Marker → σ → Prop}
    (h : Follows visit start Good Inv) (hkeeps : KeepsRefusing visit)
    (events : List (Nat × Marker)) :
    Good (accepted visit start events)
      ∧ Inv (accepted visit start events) (stateAfter visit start events) := by
  induction events using List.reverseRecOn with
  | nil => exact ⟨h.good_nil, h.inv_nil⟩
  | append_singleton past event ih =>
      obtain ⟨line, marker⟩ := event
      obtain ⟨hgood, hinv⟩ := ih
      rw [accepted_concat, stateAfter_concat]
      cases hstop : (visit line marker (stateAfter visit start past)).stop with
      | none =>
          have hnext := (h.stop_iff hgood hinv line marker).mp hstop
          rw [acceptedOf_eq_some hstop]
          exact ⟨hnext, h.inv_concat hinv line marker hnext⟩
      | some reason =>
          rw [acceptedOf_eq_none hstop, hkeeps line marker _ reason hstop, Option.toList_none,
            List.append_nil]
          exact ⟨hgood, hinv⟩

end Visitors

/-! ## Waits -/

/-- What an accumulator of waits refuses, and with which failure. -/
inductive WaitSums.Refuses {cycles : Nat} (source : String) (line : Nat)
    (waits : WaitSums cycles) : Marker → Failure → Prop where
  | unknown {cycle : Nat} {wait : Int} : cycles ≤ cycle →
      Refuses source line waits (.waiting cycle wait) (.cycleOutOfRange source line cycle cycles)
  | overflow {cycle : Nat} {wait : Int} (known : cycle < cycles) :
      ¬ Signed64 (waits.sums[cycle] + wait) →
      Refuses source line waits (.waiting cycle wait) (.waitOverflow source line cycle)

/-- In any state, refused are the waits of unknown cycles and those that take a
    sum out of range. -/
theorem WaitSums.refuses_iff {cycles : Nat} (source : String) (line : Nat)
    (waits : WaitSums cycles) (marker : Marker) (failure : Failure) :
    (waits.observe source line marker).stop = some failure
      ↔ waits.Refuses source line marker failure := by
  cases marker with
  | waiting cycle wait =>
      rw [WaitSums.observe_waiting]
      by_cases hknown : cycle < cycles
      · rw [dif_pos hknown]
        by_cases hfits : Signed64 (waits.sums[cycle] + wait)
        · rw [if_pos hfits]
          constructor
          · intro heq
            cases heq
          · intro h
            cases h with
            | unknown hunknown => omega
            | overflow _ hover => exact absurd hfits hover
        · rw [if_neg hfits]
          constructor
          · intro heq
            cases heq
            exact .overflow hknown hfits
          · intro h
            cases h with
            | unknown hunknown => omega
            | overflow _ _ => rfl
      · rw [dif_neg hknown]
        constructor
        · intro heq
          cases heq
          exact .unknown (Nat.le_of_not_lt hknown)
        · intro h
          cases h with
          | unknown _ => rfl
          | overflow hknown' _ => exact absurd hknown' hknown
  | _ =>
      constructor
      · intro heq
        cases heq
      · intro h
        cases h

/-- What is refused changes no sum. -/
theorem WaitSums.keepsRefusing (source : String) (cycles : Nat) :
    KeepsRefusing (@WaitSums.observe cycles source) := by
  intro line marker waits reason hstop
  cases (waits.refuses_iff source line marker reason).mp hstop with
  | @unknown cycle wait hunknown =>
      rw [WaitSums.observe_waiting, dif_neg (Nat.not_lt_of_le hunknown)]
  | @overflow cycle wait hknown hover =>
      rw [WaitSums.observe_waiting, dif_pos hknown, if_neg hover]

/-- Sums that belong to some markers, as a list. -/
theorem WaitSums.Of.toList_eq {cycles : Nat} {markers : List Marker} {waits : WaitSums cycles}
    (h : waits.Of markers) :
    waits.sums.toList = (List.range cycles).map fun cycle => (waitsOf cycle markers).sum := by
  refine List.ext_getElem (by simp) ?_
  intro cycle hcycle _
  have hsum := h cycle (by simpa using hcycle)
  simpa using hsum

/-- The waits that are kept of a row of waits, if each is kept with which the sum
    of those kept so far stays within 64 bits. -/
def fitting (total : Int) : List Int → List Int
  | [] => []
  | wait :: rest =>
      if Signed64 (total + wait) then wait :: fitting (total + wait) rest
      else fitting total rest

theorem fitting_concat (total : Int) (waits : List Int) (wait : Int) :
    fitting total (waits ++ [wait])
      = fitting total waits
        ++ if Signed64 (total + (fitting total waits).sum + wait) then [wait] else [] := by
  induction waits generalizing total with
  | nil => simp [fitting]
  | cons first rest ih =>
      rw [List.cons_append, fitting, fitting]
      by_cases hfits : Signed64 (total + first)
      · rw [if_pos hfits, if_pos hfits, ih, List.sum_cons, List.cons_append, ← Int.add_assoc]
      · rw [if_neg hfits, if_neg hfits, ih]

-- a wait that does not fit is passed over, and one that brings the sum back is not
example : fitting 0 [0x7fffffffffffffff, 1, -5, 1] = [0x7fffffffffffffff, -5, 1] := by decide

/-- A marker that tells no wait of a cycle adds none to it, accepted or not. -/
theorem waitsOf_append_acceptedOf {σ ε : Type} {visit : Nat → Marker → σ → Progress σ ε}
    {start : σ} {cycle : Nat} {marker : Marker} (h : marker.waitOf cycle = none)
    (markers : List Marker) (past : List (Nat × Marker)) (line : Nat) :
    waitsOf cycle (markers ++ (acceptedOf visit start (past, (line, marker))).toList)
      = waitsOf cycle markers := by
  cases hstop : (visit line marker (stateAfter visit start past)).stop with
  | none =>
      rw [acceptedOf_eq_some hstop, Option.toList_some, waitsOf_concat, h]
      exact List.append_nil _
  | some reason =>
      rw [acceptedOf_eq_none hstop]
      exact congrArg (waitsOf cycle) (List.append_nil _)

/-- Which waits of a known cycle are accepted is settled by the waits of that
    cycle, and each time by those accepted before. -/
theorem waitsOf_accepted (source : String) {cycles cycle : Nat} (hknown : cycle < cycles)
    (events : List (Nat × Marker)) :
    waitsOf cycle (accepted (WaitSums.observe source) (WaitSums.zero cycles) events)
      = fitting 0 (waitsOf cycle (events.map Prod.snd)) := by
  induction events using List.reverseRecOn with
  | nil => rfl
  | append_singleton past event ih =>
      obtain ⟨line, marker⟩ := event
      have hsum := ((follows_waits source cycles).ongoing
        (WaitSums.keepsRefusing source cycles) past).2 cycle hknown
      rw [accepted_concat, List.map_append, List.map_singleton, waitsOf_concat]
      cases hwait : marker.waitOf cycle with
      | none =>
          rw [waitsOf_append_acceptedOf hwait, ih]
          exact congrArg (fitting 0) (List.append_nil _).symm
      | some wait =>
          obtain rfl := marker.eq_of_waitOf hwait
          rw [ih] at hsum
          rw [Option.toList_some, fitting_concat, Int.zero_add, ← hsum]
          cases hstop : ((stateAfter (WaitSums.observe source) (WaitSums.zero cycles) past).observe
              source line (.waiting cycle wait)).stop with
          | none =>
              obtain ⟨_, hfits⟩ := (WaitSums.stop_waiting source line cycle wait _).mp hstop
              rw [if_pos hfits, acceptedOf_eq_some hstop, Option.toList_some, waitsOf_concat, ih]
              rw [hwait, Option.toList_some]
          | some reason =>
              have hover : ¬ Signed64 ((stateAfter (WaitSums.observe source)
                  (WaitSums.zero cycles) past).sums[cycle] + wait) := by
                intro hfits
                have hnone := (WaitSums.stop_waiting source line cycle wait _).mpr ⟨hknown, hfits⟩
                rw [hstop] at hnone
                cases hnone
              rw [if_neg hover, acceptedOf_eq_none hstop, Option.toList_none, List.append_nil,
                List.append_nil, ih]

/-- **REFUSED WAITS**: in any state, refused are exactly the waits of unknown
    cycles and those that take a sum out of range, and what is refused changes
    nothing.  So after any run there is one sum for each cycle, that of its
    accepted waits, of which every sum of the first ones fits as well; and
    which these are depends on no other event. -/
theorem refused_waits_leave_no_trace (source : String) (cycles : Nat)
    (events : List (Nat × Marker)) :
    (∀ (waits : WaitSums cycles) (line : Nat) (marker : Marker) (failure : Failure),
        (waits.observe source line marker).stop = some failure
          ↔ waits.Refuses source line marker failure)
      ∧ (∀ (waits : WaitSums cycles) (line : Nat) (marker : Marker) (failure : Failure),
        (waits.observe source line marker).stop = some failure →
          (waits.observe source line marker).state = waits)
      ∧ (stateAfter (WaitSums.observe source) (WaitSums.zero cycles) events).sums.toList
        = (List.range cycles).map (fun cycle => (waitsOf cycle
            (accepted (WaitSums.observe source) (WaitSums.zero cycles) events)).sum)
      ∧ (∀ cycle first,
        first <+: waitsOf cycle (accepted (WaitSums.observe source) (WaitSums.zero cycles) events) →
          Signed64 first.sum)
      ∧ ∀ cycle < cycles,
        waitsOf cycle (accepted (WaitSums.observe source) (WaitSums.zero cycles) events)
            = fitting 0 (waitsOf cycle (events.map Prod.snd))
          ∧ ∀ other : List (Nat × Marker),
            waitsOf cycle (other.map Prod.snd) = waitsOf cycle (events.map Prod.snd) →
            (stateAfter (WaitSums.observe source) (WaitSums.zero cycles) other).sums.toList[cycle]?
              = (stateAfter (WaitSums.observe source) (WaitSums.zero cycles)
                  events).sums.toList[cycle]? := by
  have hrun := (follows_waits source cycles).ongoing (WaitSums.keepsRefusing source cycles)
  refine ⟨fun waits line marker failure => waits.refuses_iff source line marker failure,
    fun waits line marker failure => WaitSums.keepsRefusing source cycles line marker waits failure,
    ?_, fun cycle => (hrun events).1.bounded cycle, ?_⟩
  · exact (hrun events).2.toList_eq
  · intro cycle hknown
    refine ⟨waitsOf_accepted source hknown events, fun other hsame => ?_⟩
    rw [(hrun other).2.toList_eq, (hrun events).2.toList_eq, List.getElem?_map, List.getElem?_map,
      List.getElem?_range hknown, Option.map_some, Option.map_some,
      waitsOf_accepted source hknown other, waitsOf_accepted source hknown events, hsame]

/-! ## Bounds -/

/-- What a table of bounds refuses, and with which failure. -/
inductive CycleBounds.Refuses (source : String) (line cycles : Nat) : Marker → Failure → Prop where
  | unknown {bound : CycleBound} {cycle : Nat} {timestamp : Int} : cycles ≤ cycle →
      Refuses source line cycles (bound.marker cycle timestamp)
        (.cycleOutOfRange source line cycle cycles)

/-- In any state, refused are the starts and the ends of unknown cycles. -/
theorem CycleBounds.refuses_iff {cycles : Nat} (source : String) (line : Nat)
    (bounds : CycleBounds cycles) (marker : Marker) (failure : Failure) :
    (bounds.observe source line marker).stop = some failure
      ↔ CycleBounds.Refuses source line cycles marker failure := by
  constructor
  · intro hstop
    cases marker with
    | startCycle cycle timestamp =>
        rw [CycleBounds.observe_start] at hstop
        by_cases hknown : cycle < cycles
        · rw [dif_pos hknown] at hstop
          cases hstop
        · rw [dif_neg hknown] at hstop
          cases hstop
          exact @CycleBounds.Refuses.unknown _ _ _ .start _ _ (Nat.le_of_not_lt hknown)
    | endId cycle timestamp =>
        rw [CycleBounds.observe_end] at hstop
        by_cases hknown : cycle < cycles
        · rw [dif_pos hknown] at hstop
          cases hstop
        · rw [dif_neg hknown] at hstop
          cases hstop
          exact @CycleBounds.Refuses.unknown _ _ _ .finish _ _ (Nat.le_of_not_lt hknown)
    | _ => cases hstop
  · intro h
    cases h with
    | @unknown bound cycle timestamp hunknown =>
        cases bound with
        | start =>
            show (bounds.observe source line (.startCycle cycle timestamp)).stop = _
            rw [CycleBounds.observe_start, dif_neg (Nat.not_lt_of_le hunknown)]
        | finish =>
            show (bounds.observe source line (.endId cycle timestamp)).stop = _
            rw [CycleBounds.observe_end, dif_neg (Nat.not_lt_of_le hunknown)]

/-- What is refused changes no bound. -/
theorem CycleBounds.keepsRefusing (source : String) (cycles : Nat) :
    KeepsRefusing (@CycleBounds.observe cycles source) := by
  intro line marker bounds reason hstop
  refine CycleBounds.state_of_unknown source line bounds ?_
  rw [← CycleBounds.stop_iff source line marker bounds, hstop]
  exact nofun

/-- The table after a run belongs to the accepted markers. -/
theorem CycleBounds.of_accepted (source : String) (cycles : Nat) (events : List (Nat × Marker)) :
    (stateAfter (CycleBounds.observe source) (CycleBounds.unset cycles) events).Of
      (accepted (CycleBounds.observe source) (CycleBounds.unset cycles) events) :=
  ((follows_bounds source cycles).ongoing (CycleBounds.keepsRefusing source cycles) events).2

/-- Of a known cycle every start and every end is accepted, so the last accepted
    one is the last of all. -/
theorem lastBound_accepted (source : String) {cycles cycle : Nat} (hknown : cycle < cycles)
    (bound : CycleBound) (events : List (Nat × Marker)) :
    lastBound bound cycle
        (accepted (CycleBounds.observe source) (CycleBounds.unset cycles) events)
      = lastBound bound cycle (events.map Prod.snd) := by
  induction events using List.reverseRecOn with
  | nil => rfl
  | append_singleton past event ih =>
      obtain ⟨line, marker⟩ := event
      rw [accepted_concat, List.map_append, List.map_singleton, lastBound_concat]
      cases hstop : ((stateAfter (CycleBounds.observe source) (CycleBounds.unset cycles)
          past).observe source line marker).stop with
      | none => rw [acceptedOf_eq_some hstop, Option.toList_some, lastBound_concat, ih]
      | some failure =>
          -- what is refused is of an unknown cycle, so it bounds none that is known
          have hother : marker.boundOf bound cycle = none := by
            cases (CycleBounds.refuses_iff source line _ marker failure).mp hstop with
            | @unknown edge c timestamp hunknown =>
                have hne : c ≠ cycle := by omega
                cases edge with
                | start => exact if_neg fun h => hne h.2
                | finish => exact if_neg fun h => hne h.2
          rw [acceptedOf_eq_none hstop, Option.toList_none, List.append_nil, ih, hother,
            Option.none_or]

/-- Whether a marker is a start, or an end, of a cycle. -/
def Marker.bounds (bound : CycleBound) : Marker → Bool
  | .startCycle _ _ => bound = .start
  | .endId _ _ => bound = .finish
  | _ => false

/-- The last start depends on the starts alone, and the last end on the ends. -/
theorem lastBound_filter (bound : CycleBound) (cycle : Nat) (markers : List Marker) :
    lastBound bound cycle (markers.filter (Marker.bounds bound))
      = lastBound bound cycle markers := by
  simp only [lastBound]
  rw [List.filterMap_filter]
  congr 1
  refine List.filterMap_congr fun marker _ => ?_
  cases marker with
  | startCycle c timestamp => cases bound <;> simp [Marker.bounds, Marker.boundOf]
  | endId c timestamp => cases bound <;> simp [Marker.bounds, Marker.boundOf]
  | _ => rfl

/-- Two tables with the same last timestamps are the same. -/
theorem CycleBounds.Of.eq_of_lastBound {cycles : Nat} {markers markers' : List Marker}
    {bounds bounds' : CycleBounds cycles} (h : bounds.Of markers) (h' : bounds'.Of markers')
    (hsame : ∀ bound, ∀ cycle < cycles,
      lastBound bound cycle markers = lastBound bound cycle markers') : bounds = bounds' := by
  have htimes : ∀ bound, bounds.times bound = bounds'.times bound := by
    intro bound
    refine Vector.ext fun cycle hcycle => ?_
    rw [h bound cycle hcycle, h' bound cycle hcycle, hsame bound cycle hcycle]
  obtain ⟨starts, finishes⟩ := bounds
  obtain ⟨starts', finishes'⟩ := bounds'
  obtain rfl : starts = starts' := htimes .start
  obtain rfl : finishes = finishes' := htimes .finish
  rfl

/-- A start or an end that is not positive leaves its cycle without that bound,
    whatever was known of it. -/
theorem lacks_after_undoing (source : String) {cycles cycle : Nat} (hknown : cycle < cycles)
    (bound : CycleBound) {timestamp : Int} (hundone : timestamp ≤ 0)
    (events : List (Nat × Marker)) (line : Nat) :
    ¬ HasTime (accepted (CycleBounds.observe source) (CycleBounds.unset cycles)
      (events ++ [(line, bound.marker cycle timestamp)])) bound cycle := by
  rintro ⟨t, hlast, hpos⟩
  rw [lastBound_accepted source hknown, List.map_append, List.map_singleton,
    lastBound_concat] at hlast
  have hown : (bound.marker cycle timestamp).boundOf bound cycle = some timestamp := by
    cases bound with
    | start => exact if_pos ⟨rfl, rfl⟩
    | finish => exact if_pos ⟨rfl, rfl⟩
  rw [hown, Option.some_or] at hlast
  have := Option.some.inj hlast
  omega

/-- Durations are there exactly if no known cycle lacks a bound. -/
theorem exists_durationsOf_iff_hasTime (cycles : Nat) (markers : List Marker) :
    (∃ durations, DurationsOf cycles markers durations)
      ↔ ∀ cycle < cycles, ∀ bound, HasTime markers bound cycle := by
  rw [exists_durationsOf_iff]
  refine forall₂_congr fun cycle _ => ?_
  constructor
  · rintro ⟨start, finish, hstart, hspos, hfinish, hfpos⟩ bound
    cases bound with
    | start => exact ⟨start, hstart, hspos⟩
    | finish => exact ⟨finish, hfinish, hfpos⟩
  · intro hall
    obtain ⟨start, hstart, hspos⟩ := hall .start
    obtain ⟨finish, hfinish, hfpos⟩ := hall .finish
    exact ⟨start, finish, hstart, hspos, hfinish, hfpos⟩

/-- **REFUSED BOUNDS**: in any state, refused are exactly the starts and ends of
    unknown cycles, and what is refused changes nothing.  So after any run there
    are durations exactly if the last accepted start and end of every cycle are
    there and positive, and else the failure names the first that is not; a
    timestamp that is not positive undoes those before it, and it does not matter
    how starts and ends lie among each other. -/
theorem refused_bounds_leave_no_trace (source : String) (cycles : Nat)
    (events : List (Nat × Marker)) :
    (∀ (bounds : CycleBounds cycles) (line : Nat) (marker : Marker) (failure : Failure),
        (bounds.observe source line marker).stop = some failure
          ↔ CycleBounds.Refuses source line cycles marker failure)
      ∧ (∀ (bounds : CycleBounds cycles) (line : Nat) (marker : Marker) (failure : Failure),
        (bounds.observe source line marker).stop = some failure →
          (bounds.observe source line marker).state = bounds)
      ∧ ((∃ durations, (stateAfter (CycleBounds.observe source) (CycleBounds.unset cycles)
            events).durations source = .ok durations)
        ↔ ∀ cycle < cycles, ∀ bound,
          HasTime (accepted (CycleBounds.observe source) (CycleBounds.unset cycles) events)
            bound cycle)
      ∧ (∀ durations, (stateAfter (CycleBounds.observe source) (CycleBounds.unset cycles)
            events).durations source = .ok durations
        ↔ DurationsOf cycles
          (accepted (CycleBounds.observe source) (CycleBounds.unset cycles) events) durations)
      ∧ (∀ failure, (stateAfter (CycleBounds.observe source) (CycleBounds.unset cycles)
            events).durations source = .error failure
        ↔ ∃ cycle bound, LacksFirst cycles
            (accepted (CycleBounds.observe source) (CycleBounds.unset cycles) events) cycle bound
          ∧ failure = .missingBound source cycle bound)
      ∧ (∀ cycle < cycles, ∀ (bound : CycleBound) (timestamp : Int) (line : Nat) (durations),
        timestamp ≤ 0 →
        (stateAfter (CycleBounds.observe source) (CycleBounds.unset cycles)
          (events ++ [(line, bound.marker cycle timestamp)])).durations source ≠ .ok durations)
      ∧ ∀ other : List (Nat × Marker),
        (∀ bound, (other.map Prod.snd).filter (Marker.bounds bound)
          = (events.map Prod.snd).filter (Marker.bounds bound)) →
        (stateAfter (CycleBounds.observe source) (CycleBounds.unset cycles) other).durations source
          = (stateAfter (CycleBounds.observe source) (CycleBounds.unset cycles)
              events).durations source := by
  have hof := CycleBounds.of_accepted source cycles
  have hok := fun run durations =>
    CycleBounds.durations_eq_ok_iff (hof run) source durations
  refine ⟨fun bounds line marker failure => bounds.refuses_iff source line marker failure,
    fun bounds line marker failure =>
      CycleBounds.keepsRefusing source cycles line marker bounds failure,
    ?_, hok events, CycleBounds.durations_eq_error_iff (hof events) source, ?_, ?_⟩
  · simp only [hok]
    exact exists_durationsOf_iff_hasTime cycles _
  · intro cycle hknown bound timestamp line durations hundone heq
    have hall := (exists_durationsOf_iff_hasTime cycles _).mp ⟨durations, (hok _ durations).mp heq⟩
    exact lacks_after_undoing source hknown bound hundone events line (hall cycle hknown bound)
  · intro other hsame
    rw [(hof other).eq_of_lastBound (hof events)]
    intro bound cycle hknown
    rw [lastBound_accepted source hknown, lastBound_accepted source hknown, ← lastBound_filter,
      hsame, lastBound_filter]

end RunTimings
