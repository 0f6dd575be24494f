import RunTimings.Measure.CycleBounds
import RunTimings.Proofs.LogReading
import RunTimings.Proofs.Outcomes

/-! # Cycle bounds over whole logs — the last timestamp counts

    The two timestamps of a cycle are written over by every later marker of the
    same kind.  What is left at the end is the last one, in whichever order
    starts and ends stand.

    * `lastBound` is that timestamp, read off the markers; `BoundsKnown` is the
      rule that only configured cycles occur.
    * `follows_bounds` shows that the table of bounds follows the rule and holds
      the last timestamps, and `measureCycles_eq_ok_iff` says when a log gives
      the durations of all cycles and which they are.
    * `LacksFirst` is the first bound that is missing, and
      `CycleBounds.durations_eq_error_iff` says that it is the one that is
      reported. -/

namespace RunTimings

/-! ## The last timestamps -/

/-- The timestamp a marker gives as a start or as an end of a cycle. -/
def Marker.boundOf (bound : CycleBound) (cycle : Nat) : Marker → Option Int
  | .startCycle c timestamp => if bound = .start ∧ c = cycle then some timestamp else none
  | .endId c timestamp => if bound = .finish ∧ c = cycle then some timestamp else none
  | _ => none

/-- The last start, or the last end, of a cycle among some markers. -/
def lastBound (bound : CycleBound) (cycle : Nat) (markers : List Marker) : Option Int :=
  (markers.filterMap (Marker.boundOf bound cycle)).getLast?

/-- A later timestamp takes the place of the earlier ones. -/
theorem lastBound_concat (bound : CycleBound) (cycle : Nat) (past : List Marker)
    (marker : Marker) :
    lastBound bound cycle (past ++ [marker])
      = (marker.boundOf bound cycle).or (lastBound bound cycle past) := by
  simp only [lastBound]
  rw [List.filterMap_append]
  cases h : marker.boundOf bound cycle with
  | none => simp [h]
  | some timestamp => simp [h]

/-- The last timestamp stands on one of the markers. -/
theorem exists_of_lastBound {bound : CycleBound} {cycle : Nat} {markers : List Marker}
    {timestamp : Int} (h : lastBound bound cycle markers = some timestamp) :
    ∃ marker ∈ markers, marker.boundOf bound cycle = some timestamp := by
  have hmem := List.mem_of_getLast? h
  exact List.mem_filterMap.mp hmem

/-- The timestamp of a bound is the number of its marker. -/
theorem Marker.number_of_boundOf {bound : CycleBound} {cycle : Nat} {marker : Marker}
    {timestamp : Int} (h : marker.boundOf bound cycle = some timestamp) :
    marker.number = timestamp := by
  cases marker with
  | startCycle c t => exact Option.some.inj (Option.ite_none_right_eq_some.mp h).2
  | endId c t => exact Option.some.inj (Option.ite_none_right_eq_some.mp h).2
  | _ => cases h

/-- A start or an end of a cycle, as a marker. -/
def CycleBound.marker : CycleBound → Nat → Int → Marker
  | .start, cycle, timestamp => .startCycle cycle timestamp
  | .finish, cycle, timestamp => .endId cycle timestamp

/-- A marker gives a timestamp to a bound of a cycle only if it is that bound. -/
theorem Marker.eq_of_boundOf {marker : Marker} {bound : CycleBound} {cycle : Nat}
    {timestamp : Int} (h : marker.boundOf bound cycle = some timestamp) :
    marker = bound.marker cycle timestamp := by
  cases marker with
  | startCycle c t =>
      obtain ⟨⟨rfl, rfl⟩, hsame⟩ := Option.ite_none_right_eq_some.mp h
      rw [Option.some.inj hsame]
      rfl
  | endId c t =>
      obtain ⟨⟨rfl, rfl⟩, hsame⟩ := Option.ite_none_right_eq_some.mp h
      rw [Option.some.inj hsame]
      rfl
  | _ => cases h

/-- The rule on cycle markers: every start and every end is of a known cycle. -/
structure BoundsKnown (cycles : Nat) (markers : List Marker) : Prop where
  starts : ∀ cycle timestamp, Marker.startCycle cycle timestamp ∈ markers → cycle < cycles
  finishes : ∀ cycle timestamp, Marker.endId cycle timestamp ∈ markers → cycle < cycles

/-- Whether a marker is of a known cycle, should it bound a cycle at all. -/
def Marker.BoundKnown (cycles : Nat) : Marker → Prop
  | .startCycle cycle _ => cycle < cycles
  | .endId cycle _ => cycle < cycles
  | _ => True

theorem boundsKnown_iff (cycles : Nat) (markers : List Marker) :
    BoundsKnown cycles markers ↔ ∀ marker ∈ markers, marker.BoundKnown cycles := by
  constructor
  · intro h marker hmem
    cases marker with
    | startCycle cycle timestamp => exact h.starts cycle timestamp hmem
    | endId cycle timestamp => exact h.finishes cycle timestamp hmem
    | _ => exact trivial
  · intro h
    exact ⟨fun cycle timestamp hmem => h _ hmem, fun cycle timestamp hmem => h _ hmem⟩

theorem boundsKnown_concat (cycles : Nat) (past : List Marker) (marker : Marker) :
    BoundsKnown cycles (past ++ [marker])
      ↔ BoundsKnown cycles past ∧ marker.BoundKnown cycles := by
  rw [boundsKnown_iff, boundsKnown_iff, List.forall_mem_append, List.forall_mem_singleton]

/-! ## The table follows the rule -/

/-- One of the two columns of the table. -/
def CycleBounds.times {cycles : Nat} (bounds : CycleBounds cycles) :
    CycleBound → Vector (Option Int) cycles
  | .start => bounds.starts
  | .finish => bounds.finishes

/-- The table belongs to some markers: it holds the last timestamps. -/
def CycleBounds.Of {cycles : Nat} (markers : List Marker) (bounds : CycleBounds cycles) : Prop :=
  ∀ bound cycle, (h : cycle < cycles) →
    (bounds.times bound)[cycle] = lastBound bound cycle markers

theorem CycleBounds.observe_start {cycles : Nat} (source : String) (line cycle : Nat)
    (timestamp : Int) (bounds : CycleBounds cycles) :
    bounds.observe source line (.startCycle cycle timestamp)
      = if known : cycle < cycles then
          ⟨{ bounds with starts := bounds.starts.set cycle (some timestamp) known }, none⟩
        else ⟨bounds, some (.cycleOutOfRange source line cycle cycles)⟩ := rfl

theorem CycleBounds.observe_end {cycles : Nat} (source : String) (line cycle : Nat)
    (timestamp : Int) (bounds : CycleBounds cycles) :
    bounds.observe source line (.endId cycle timestamp)
      = if known : cycle < cycles then
          ⟨{ bounds with finishes := bounds.finishes.set cycle (some timestamp) known }, none⟩
        else ⟨bounds, some (.cycleOutOfRange source line cycle cycles)⟩ := rfl

/-- Only an unknown cycle stops the table. -/
theorem CycleBounds.stop_iff {cycles : Nat} (source : String) (line : Nat) (marker : Marker)
    (bounds : CycleBounds cycles) :
    (bounds.observe source line marker).stop = none ↔ marker.BoundKnown cycles := by
  cases marker with
  | startCycle cycle timestamp =>
      rw [CycleBounds.observe_start]
      by_cases hknown : cycle < cycles
      · simp [hknown, Marker.BoundKnown]
      · simp [hknown, Marker.BoundKnown]
  | endId cycle timestamp =>
      rw [CycleBounds.observe_end]
      by_cases hknown : cycle < cycles
      · simp [hknown, Marker.BoundKnown]
      · simp [hknown, Marker.BoundKnown]
  | _ => exact ⟨fun _ => trivial, fun _ => rfl⟩

/-- A marker of an unknown cycle leaves the table as it is. -/
theorem CycleBounds.state_of_unknown {cycles : Nat} (source : String) (line : Nat)
    {marker : Marker} (bounds : CycleBounds cycles) (h : ¬ marker.BoundKnown cycles) :
    (bounds.observe source line marker).state = bounds := by
  cases marker with
  | startCycle cycle timestamp =>
      have hunknown : ¬ cycle < cycles := h
      rw [CycleBounds.observe_start, dif_neg hunknown]
  | endId cycle timestamp =>
      have hunknown : ¬ cycle < cycles := h
      rw [CycleBounds.observe_end, dif_neg hunknown]
  | _ => rfl

/-- A timestamp is written into its own column at its own cycle. -/
theorem CycleBounds.times_observe {cycles : Nat} (source : String) (line : Nat) (marker : Marker)
    (bounds : CycleBounds cycles) (hknown : marker.BoundKnown cycles) (bound : CycleBound)
    (c : Nat) (hc : c < cycles) :
    ((bounds.observe source line marker).state.times bound)[c]
      = (marker.boundOf bound c).or (bounds.times bound)[c] := by
  cases marker with
  | startCycle cycle timestamp =>
      have hcycle : cycle < cycles := hknown
      rw [CycleBounds.observe_start, dif_pos hcycle]
      cases bound with
      | start =>
          show (bounds.starts.set cycle (some timestamp) hcycle)[c] = _
          rw [Vector.getElem_set]
          by_cases hsame : cycle = c
          · simp [Marker.boundOf, hsame]
          · simp [Marker.boundOf, hsame, CycleBounds.times]
      | finish => simp [Marker.boundOf, CycleBounds.times]
  | endId cycle timestamp =>
      have hcycle : cycle < cycles := hknown
      rw [CycleBounds.observe_end, dif_pos hcycle]
      cases bound with
      | start => simp [Marker.boundOf, CycleBounds.times]
      | finish =>
          show (bounds.finishes.set cycle (some timestamp) hcycle)[c] = _
          rw [Vector.getElem_set]
          by_cases hsame : cycle = c
          · simp [Marker.boundOf, hsame]
          · simp [Marker.boundOf, hsame, CycleBounds.times]
  | _ => rfl

/-- The table of bounds follows the rule on cycle markers, with the last
    timestamps as its state. -/
theorem follows_bounds (source : String) (cycles : Nat) :
    Follows (CycleBounds.observe source) (CycleBounds.unset cycles) (BoundsKnown cycles)
      CycleBounds.Of where
  good_nil := by
    rw [boundsKnown_iff]
    intro marker hmem
    exact absurd hmem List.not_mem_nil
  inv_nil := by
    intro bound cycle h
    cases bound with
    | start => exact Vector.getElem_replicate h
    | finish => exact Vector.getElem_replicate h
  good_of_concat := fun h => ((boundsKnown_concat _ _ _).mp h).1
  stop_iff := by
    intro past bounds hgood hbounds line marker
    rw [CycleBounds.stop_iff, boundsKnown_concat]
    exact ⟨fun h => ⟨hgood, h⟩, fun h => h.2⟩
  inv_concat := by
    intro past bounds hbounds line marker hgood bound cycle h
    rw [CycleBounds.times_observe source line marker bounds
      ((boundsKnown_concat _ _ _).mp hgood).2, lastBound_concat, hbounds bound cycle h]

/-! ## Durations -/

/-- A cycle has a duration exactly if both timestamps are there and positive. -/
theorem cycleDuration_eq_ok_iff (source : String) (cycle : Nat) (first last : Option Int)
    (duration : Int) :
    cycleDuration source cycle first last = .ok duration
      ↔ ∃ start finish, first = some start ∧ 0 < start ∧ last = some finish ∧ 0 < finish
        ∧ duration = finish - start := by
  have husable : ∀ (timestamp : Option Int) (t : Int),
      usable timestamp = some t ↔ timestamp = some t ∧ 0 < t := by
    intro timestamp t
    simp only [usable]
    rw [Option.filter_eq_some_iff, decide_eq_true_iff]
  simp only [cycleDuration]
  constructor
  · intro h
    cases hfirst : usable first with
    | none =>
        rw [hfirst] at h
        cases h
    | some start =>
        cases hlast : usable last with
        | none =>
            rw [hfirst, hlast] at h
            cases h
        | some finish =>
            rw [hfirst, hlast] at h
            cases h
            obtain ⟨hstart, hpos⟩ := (husable first start).mp hfirst
            obtain ⟨hfinish, hpos'⟩ := (husable last finish).mp hlast
            exact ⟨start, finish, hstart, hpos, hfinish, hpos', rfl⟩
  · rintro ⟨start, finish, hstart, hpos, hfinish, hpos', rfl⟩
    rw [(husable first start).mpr ⟨hstart, hpos⟩, (husable last finish).mpr ⟨hfinish, hpos'⟩]

/-- The durations of a log: one for each cycle, from its last start to its last
    end, both of which are there and positive. -/
def DurationsOf (cycles : Nat) (markers : List Marker) (durations : List Int) : Prop :=
  durations.length = cycles ∧ ∀ cycle < cycles, ∃ start finish,
    lastBound .start cycle markers = some start ∧ 0 < start
      ∧ lastBound .finish cycle markers = some finish ∧ 0 < finish
      ∧ durations[cycle]? = some (finish - start)

/-- There are durations exactly if each cycle has both bounds, and positive ones. -/
theorem exists_durationsOf_iff (cycles : Nat) (markers : List Marker) :
    (∃ durations, DurationsOf cycles markers durations)
      ↔ ∀ cycle < cycles, ∃ start finish, lastBound .start cycle markers = some start ∧ 0 < start
        ∧ lastBound .finish cycle markers = some finish ∧ 0 < finish := by
  constructor
  · rintro ⟨durations, -, hall⟩ cycle hcycle
    obtain ⟨start, finish, hstart, hspos, hfinish, hfpos, -⟩ := hall cycle hcycle
    exact ⟨start, finish, hstart, hspos, hfinish, hfpos⟩
  · -- each cycle chooses its own two timestamps
    intro hall
    choose! start finish hbounds using hall
    refine ⟨(List.range cycles).map fun cycle => finish cycle - start cycle, by simp, ?_⟩
    intro cycle hcycle
    obtain ⟨hstart, hspos, hfinish, hfpos⟩ := hbounds cycle hcycle
    refine ⟨start cycle, finish cycle, hstart, hspos, hfinish, hfpos, ?_⟩
    rw [List.getElem?_map, List.getElem?_range hcycle]
    rfl

/-- A table that belongs to some markers has their durations, if they have any. -/
theorem CycleBounds.durations_eq_ok_iff {cycles : Nat} {markers : List Marker}
    {bounds : CycleBounds cycles} (h : bounds.Of markers) (source : String)
    (durations : List Int) :
    bounds.durations source = .ok durations ↔ DurationsOf cycles markers durations := by
  simp only [CycleBounds.durations, DurationsOf]
  rw [mapM_finRange_eq_ok_iff]
  refine and_congr_right fun _ => forall₂_congr ?_
  intro cycle hcycle
  have hstart : bounds.starts.get ⟨cycle, hcycle⟩ = lastBound .start cycle markers :=
    h .start cycle hcycle
  have hfinish : bounds.finishes.get ⟨cycle, hcycle⟩ = lastBound .finish cycle markers :=
    h .finish cycle hcycle
  rw [hstart, hfinish]
  constructor
  · rintro ⟨duration, hok, hget⟩
    obtain ⟨start, finish, hs, hspos, hf, hfpos, rfl⟩ :=
      (cycleDuration_eq_ok_iff source cycle _ _ duration).mp hok
    exact ⟨start, finish, hs, hspos, hf, hfpos, hget⟩
  · rintro ⟨start, finish, hs, hspos, hf, hfpos, hget⟩
    exact ⟨finish - start, (cycleDuration_eq_ok_iff source cycle _ _ _).mpr
      ⟨start, finish, hs, hspos, hf, hfpos, rfl⟩, hget⟩

/-- **DURATIONS**: a log has durations exactly if it is readable, all its cycle
    markers are of known cycles, and each cycle has a positive last start and a
    positive last end; the durations lie between these. -/
theorem measureCycles_eq_ok_iff (source : String) (cycles : Nat) (log : LogContent)
    (durations : List Int) :
    measureCycles source cycles log = .ok durations
      ↔ (log.Readable ∧ BoundsKnown cycles log.markers)
        ∧ DurationsOf cycles log.markers durations := by
  obtain ⟨hstop, hinv⟩ := (follows_bounds source cycles).completes_log (Failure.ofLine source) log
  simp only [measureCycles]
  generalize scan (Failure.ofLine source) (CycleBounds.observe source) log.findings
    (CycleBounds.unset cycles) = bounded at hstop hinv ⊢
  obtain ⟨bounds, stop⟩ := bounded
  rw [← hstop]
  cases stop with
  | some failure =>
      constructor
      · intro heq
        cases heq
      · rintro ⟨heq, -⟩
        cases heq
  | none =>
      show bounds.durations source = .ok durations ↔ _
      rw [CycleBounds.durations_eq_ok_iff (hinv rfl)]
      exact ⟨fun h => ⟨rfl, h⟩, fun h => h.2⟩

/-! ## What is missing -/

/-- A cycle has a start, or an end, that counts: the last is positive. -/
def HasTime (markers : List Marker) (bound : CycleBound) (cycle : Nat) : Prop :=
  ∃ timestamp, lastBound bound cycle markers = some timestamp ∧ 0 < timestamp

/-- The first thing that is missing among the bounds of some cycles: of the first
    cycle that lacks one, the start if it lacks that, and else the end. -/
structure LacksFirst (cycles : Nat) (markers : List Marker) (cycle : Nat) (bound : CycleBound) :
    Prop where
  known : cycle < cycles
  lacks : ¬ HasTime markers bound cycle
  start_first : bound = .finish → HasTime markers .start cycle
  earlier : ∀ c < cycle, ∀ b, HasTime markers b c

theorem usable_eq_none_iff (markers : List Marker) (bound : CycleBound) (cycle : Nat) :
    usable (lastBound bound cycle markers) = none ↔ ¬ HasTime markers bound cycle := by
  simp only [usable, HasTime]
  rw [Option.filter_eq_none_iff]
  simp

/-- A cycle has a duration exactly if it has both bounds. -/
theorem exists_cycleDuration_iff (source : String) (markers : List Marker) (cycle : Nat) :
    (∃ duration, cycleDuration source cycle (lastBound .start cycle markers)
        (lastBound .finish cycle markers) = .ok duration)
      ↔ ∀ bound, HasTime markers bound cycle := by
  constructor
  · rintro ⟨duration, hok⟩ bound
    obtain ⟨start, finish, hstart, hspos, hfinish, hfpos, -⟩ :=
      (cycleDuration_eq_ok_iff source cycle _ _ duration).mp hok
    cases bound with
    | start => exact ⟨start, hstart, hspos⟩
    | finish => exact ⟨finish, hfinish, hfpos⟩
  · intro hall
    obtain ⟨start, hstart, hspos⟩ := hall .start
    obtain ⟨finish, hfinish, hfpos⟩ := hall .finish
    exact ⟨finish - start, (cycleDuration_eq_ok_iff source cycle _ _ _).mpr
      ⟨start, finish, hstart, hspos, hfinish, hfpos, rfl⟩⟩

/-- A cycle has no duration exactly if it lacks a bound; the start is asked for
    first. -/
theorem cycleDuration_eq_error_iff (source : String) (markers : List Marker) (cycle : Nat)
    (failure : Failure) :
    cycleDuration source cycle (lastBound .start cycle markers) (lastBound .finish cycle markers)
        = .error failure
      ↔ ∃ bound, ¬ HasTime markers bound cycle
        ∧ (bound = .finish → HasTime markers .start cycle)
        ∧ failure = .missingBound source cycle bound := by
  simp only [cycleDuration]
  by_cases hstart : HasTime markers .start cycle
  · obtain ⟨start, hused⟩ := Option.ne_none_iff_exists'.mp
      (fun hnone => (usable_eq_none_iff markers .start cycle).mp hnone hstart)
    rw [hused]
    by_cases hfinish : HasTime markers .finish cycle
    · -- nothing is missing, and nothing is said to be
      obtain ⟨finish, hused⟩ := Option.ne_none_iff_exists'.mp
        (fun hnone => (usable_eq_none_iff markers .finish cycle).mp hnone hfinish)
      rw [hused]
      constructor
      · intro heq
        cases heq
      · rintro ⟨bound, hlacks, -⟩
        cases bound with
        | start => exact absurd hstart hlacks
        | finish => exact absurd hfinish hlacks
    · rw [(usable_eq_none_iff markers .finish cycle).mpr hfinish]
      constructor
      · intro heq
        exact ⟨.finish, hfinish, fun _ => hstart, (Except.error.inj heq).symm⟩
      · rintro ⟨bound, hlacks, -, rfl⟩
        cases bound with
        | start => exact absurd hstart hlacks
        | finish => rfl
  · rw [(usable_eq_none_iff markers .start cycle).mpr hstart]
    constructor
    · intro heq
      exact ⟨.start, hstart, nofun, (Except.error.inj heq).symm⟩
    · rintro ⟨bound, -, hfirst, rfl⟩
      cases bound with
      | start => rfl
      | finish => exact absurd (hfirst rfl) hstart

/-- A table that belongs to some markers has no durations exactly if a bound is
    missing; the failure names the first. -/
theorem CycleBounds.durations_eq_error_iff {cycles : Nat} {markers : List Marker}
    {bounds : CycleBounds cycles} (h : bounds.Of markers) (source : String) (failure : Failure) :
    bounds.durations source = .error failure
      ↔ ∃ cycle bound, LacksFirst cycles markers cycle bound
        ∧ failure = .missingBound source cycle bound := by
  have hstart : ∀ cycle (hc : cycle < cycles),
      bounds.starts.get ⟨cycle, hc⟩ = lastBound .start cycle markers := h .start
  have hfinish : ∀ cycle (hc : cycle < cycles),
      bounds.finishes.get ⟨cycle, hc⟩ = lastBound .finish cycle markers := h .finish
  simp only [CycleBounds.durations]
  rw [mapM_finRange_eq_error_iff]
  simp only [hstart, hfinish, cycleDuration_eq_error_iff, exists_cycleDuration_iff]
  constructor
  · rintro ⟨cycle, hc, ⟨bound, hlacks, hfirst, rfl⟩, hearlier⟩
    exact ⟨cycle, bound, ⟨hc, hlacks, hfirst, hearlier⟩, rfl⟩
  · rintro ⟨cycle, bound, ⟨hc, hlacks, hfirst, hearlier⟩, rfl⟩
    exact ⟨cycle, hc, ⟨bound, hlacks, hfirst, rfl⟩, hearlier⟩

end RunTimings
