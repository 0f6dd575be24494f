import RunTimings.Measure.Intervals
import RunTimings.Proofs.BoundRuns
import RunTimings.Proofs.LineNumbers
import RunTimings.Proofs.WaitRuns

/-! # First offences — the line at which the analysis of a log ends

    A scan that stops tells of one thing that is wrong with a log.  What is
    wrong with a line can be said without a scan: the line itself, or its
    marker after the markers of the lines before.

    * `Demand` is what an analysis asks of a log: what it finds wrong with a
      marker after others, and what it misses at the end.  There is one for each
      of the three analyses of a log.
    * `Demand.FailsOn` — a log fails a demand by the SMALLEST line that offends,
      or, if there is none, by what it lacks.
    * `Enforces` is what a visitor has to keep so that its scan stops exactly
      there (`Enforces.stop_eq_some_iff`); the induction over the lines is here, once.
    * `sumWaits_eq_error_iff`, `measureCycles_eq_error_iff`,
      `trackSteps_stop_iff` — so the three analyses fail exactly as their
      demands say. -/

namespace RunTimings

/-! ## Demands -/

/-- The file and the line that a failure names, if it names a line. -/
def Failure.place : Failure → Option (String × Nat)
  | .stepOutOfRange source line _ => some (source, line)
  | .doesNotFit source line _ _ => some (source, line)
  | .cycleOutOfRange source line _ _ => some (source, line)
  | .waitOverflow source line _ => some (source, line)
  | .unread source line _ => some (source, line)
  | _ => none

/-- What an analysis demands of a log, apart from lines that can be used. -/
structure Demand where
  /-- What is wrong with a marker on a line, after the markers before it. -/
  refusal : String → List Marker → Nat → Marker → Option Failure
  /-- What is missing from all markers together. -/
  Lacks : String → List Marker → Failure → Prop
  placed : ∀ {source past line marker failure},
    refusal source past line marker = some failure → failure.place = some (source, line)
  unplaced : ∀ {source markers failure}, Lacks source markers failure → failure.place = none

/-- The pairing of steps demands nothing further. -/
def Demand.steps : Demand where
  refusal := fun _ _ _ _ => none
  Lacks := fun _ _ _ => False
  placed := nofun
  unplaced := nofun

/-- A wait is to be of a known cycle, and the sum of the cycle's waits to fit. -/
def Demand.waits (cycles : Nat) : Demand where
  refusal := fun source past line marker =>
    match marker with
    | .waiting cycle wait =>
        if cycle < cycles then
          if Signed64 ((waitsOf cycle past).sum + wait) then none
          else some (.waitOverflow source line cycle)
        else some (.cycleOutOfRange source line cycle cycles)
    | _ => none
  Lacks := fun _ _ _ => False
  placed := by
    intro source past line marker failure h
    cases marker with
    | waiting cycle wait =>
        dsimp only at h
        by_cases hknown : cycle < cycles
        · rw [if_pos hknown] at h
          obtain ⟨-, hsome⟩ := Option.ite_none_left_eq_some.mp h
          rw [← Option.some.inj hsome]
          rfl
        · rw [if_neg hknown] at h
          cases h
          rfl
    | _ => cases h
  unplaced := nofun

/-- A start or an end is to be of a known cycle, and no cycle is to lack one. -/
def Demand.bounds (cycles : Nat) : Demand where
  refusal := fun source _ line marker =>
    match marker with
    | .startCycle cycle _ =>
        if cycle < cycles then none else some (.cycleOutOfRange source line cycle cycles)
    | .endId cycle _ =>
        if cycle < cycles then none else some (.cycleOutOfRange source line cycle cycles)
    | _ => none
  Lacks := fun source markers failure => ∃ cycle bound,
    LacksFirst cycles markers cycle bound ∧ failure = .missingBound source cycle bound
  placed := by
    intro source past line marker failure h
    cases marker with
    | startCycle cycle timestamp =>
        obtain ⟨-, hsome⟩ := Option.ite_none_left_eq_some.mp h
        rw [← Option.some.inj hsome]
        rfl
    | endId cycle timestamp =>
        obtain ⟨-, hsome⟩ := Option.ite_none_left_eq_some.mp h
        rw [← Option.some.inj hsome]
        rfl
    | _ => cases h
  unplaced := by
    rintro source markers failure ⟨cycle, bound, -, rfl⟩
    rfl

/-! ## Offences -/

/-- The markers on some lines. -/
def markersOn (lines : List (Except FileError (List UInt8))) : List Marker :=
  lines.filterMap fun content => content.toOption.bind markerOn

theorem markersOn_append (before after : List (Except FileError (List UInt8))) :
    markersOn (before ++ after) = markersOn before ++ markersOn after :=
  List.filterMap_append

namespace Demand

variable (demand : Demand) (source : String)

/-- What is wrong with a line, after the markers on the lines before it. -/
def offence (past : List Marker) (line : Nat) : Except FileError (List UInt8) → Option Failure
  | .error error => some (.unread source line error)
  | .ok bytes =>
      match readLine bytes with
      | .error error => some (.ofMarker source line error)
      | .ok none => none
      | .ok (some marker) => demand.refusal source past line marker

/-- What is wrong with the line of a number, if there is such a line; the first
    line has the number one. -/
def offenceAt (lines : List (Except FileError (List UInt8))) : Nat → Option Failure
  | 0 => none
  | place + 1 =>
      lines[place]?.bind (demand.offence source (markersOn (lines.take place)) (place + 1))

/-- A line is the first that offends, and this is what is wrong with it. -/
structure FirstOffence (lines : List (Except FileError (List UInt8))) (line : Nat)
    (failure : Failure) : Prop where
  offends : demand.offenceAt source lines line = some failure
  first : ∀ earlier < line, demand.offenceAt source lines earlier = none

/-- **HOW A LOG FAILS**: by its first line that offends, which the failure names
    together with the file, or by what it lacks if no line offends. -/
inductive FailsOn (log : LogContent) (failure : Failure) : Prop where
  | offence (line : Nat) (first : demand.FirstOffence source log.lines line failure)
      (place : failure.place = some (source, line))
  | lack (clean : ∀ line, demand.offenceAt source log.lines line = none)
      (lacks : demand.Lacks source (markersOn log.lines) failure)

/-- What is wrong with a line names the file and the line. -/
theorem place_of_offence {past : List Marker} {line : Nat}
    {content : Except FileError (List UInt8)} {failure : Failure}
    (h : demand.offence source past line content = some failure) :
    failure.place = some (source, line) := by
  cases content with
  | error error => cases h; rfl
  | ok bytes =>
      simp only [offence] at h
      cases hread : readLine bytes with
      | error error =>
          rw [hread] at h
          cases h
          cases error <;> rfl
      | ok found =>
          rw [hread] at h
          cases found with
          | none => cases h
          | some marker => exact demand.placed h

theorem place_of_offenceAt {lines : List (Except FileError (List UInt8))} {line : Nat}
    {failure : Failure} (h : demand.offenceAt source lines line = some failure) :
    failure.place = some (source, line) := by
  cases line with
  | zero => cases h
  | succ place =>
      obtain ⟨content, -, hoffence⟩ := Option.bind_eq_some_iff.mp h
      exact demand.place_of_offence source hoffence

/-- What is wrong with a line depends on no later one. -/
theorem offenceAt_take (lines : List (Except FileError (List UInt8))) {line last : Nat}
    (h : line ≤ last) :
    demand.offenceAt source (lines.take last) line = demand.offenceAt source lines line := by
  cases line with
  | zero => rfl
  | succ place =>
      simp only [offenceAt]
      rw [List.getElem?_take_of_lt h, List.take_take, Nat.min_eq_left (Nat.le_of_succ_le h)]

/-- Nothing is wrong with a line that is not there. -/
theorem offenceAt_beyond {lines : List (Except FileError (List UInt8))} {line : Nat}
    (h : lines.length < line) : demand.offenceAt source lines line = none := by
  cases line with
  | zero => rfl
  | succ place =>
      simp only [offenceAt]
      rw [List.getElem?_eq_none (Nat.le_of_lt_succ h), Option.bind_none]

theorem offenceAt_concat (lines : List (Except FileError (List UInt8)))
    (content : Except FileError (List UInt8)) :
    demand.offenceAt source (lines ++ [content]) (lines.length + 1)
      = demand.offence source (markersOn lines) (lines.length + 1) content := by
  simp only [offenceAt]
  rw [List.getElem?_concat_length, List.take_left, Option.bind_some]

theorem offenceAt_before (lines : List (Except FileError (List UInt8)))
    (content : Except FileError (List UInt8)) {line : Nat} (h : line ≤ lines.length) :
    demand.offenceAt source (lines ++ [content]) line = demand.offenceAt source lines line := by
  rw [← demand.offenceAt_take source (lines ++ [content]) h, List.take_left]

variable {demand source}

/-- The first offence is at a line of the log. -/
theorem FirstOffence.le_length {lines : List (Except FileError (List UInt8))} {line : Nat}
    {failure : Failure} (h : demand.FirstOffence source lines line failure) :
    line ≤ lines.length := by
  by_contra hlt
  have hnone := demand.offenceAt_beyond source (Nat.lt_of_not_le hlt)
  rw [h.offends] at hnone
  cases hnone

/-- **PREFIXES**: lines that agree as far as the first offence have the same. -/
theorem FirstOffence.of_take {lines other : List (Except FileError (List UInt8))} {line : Nat}
    {failure : Failure} (h : demand.FirstOffence source lines line failure)
    (hsame : other.take line = lines.take line) :
    demand.FirstOffence source other line failure := by
  have hagree : ∀ earlier ≤ line,
      demand.offenceAt source other earlier = demand.offenceAt source lines earlier := by
    intro earlier hle
    rw [← demand.offenceAt_take source other hle, hsame, demand.offenceAt_take source lines hle]
  refine ⟨(hagree line (Nat.le_refl _)).trans h.offends, ?_⟩
  intro earlier hlt
  exact (hagree earlier (Nat.le_of_lt hlt)).trans (h.first earlier hlt)

/-- The first offence stays the first, whatever line follows. -/
theorem FirstOffence.concat {lines : List (Except FileError (List UInt8))} {line : Nat}
    {failure : Failure} (h : demand.FirstOffence source lines line failure)
    (content : Except FileError (List UInt8)) :
    demand.FirstOffence source (lines ++ [content]) line failure :=
  h.of_take (List.take_append_of_le_length h.le_length)

/-- Behind lines that do not offend, a line that does not leaves it so. -/
theorem clean_concat {lines : List (Except FileError (List UInt8))}
    {content : Except FileError (List UInt8)}
    (hbefore : ∀ line, demand.offenceAt source lines line = none)
    (hlast : demand.offenceAt source (lines ++ [content]) (lines.length + 1) = none) (line : Nat) :
    demand.offenceAt source (lines ++ [content]) line = none := by
  rcases Nat.lt_trichotomy line (lines.length + 1) with hlt | rfl | hgt
  · rw [demand.offenceAt_before source lines content (Nat.le_of_lt_succ hlt)]
    exact hbefore line
  · exact hlast
  · exact demand.offenceAt_beyond source (by simpa using hgt)

/-- Behind lines that do not offend, a line that does is the first. -/
theorem firstOffence_concat {lines : List (Except FileError (List UInt8))}
    {content : Except FileError (List UInt8)} {failure : Failure}
    (hbefore : ∀ line, demand.offenceAt source lines line = none)
    (hlast : demand.offenceAt source (lines ++ [content]) (lines.length + 1) = some failure) :
    demand.FirstOffence source (lines ++ [content]) (lines.length + 1) failure := by
  refine ⟨hlast, ?_⟩
  intro earlier hlt
  rw [demand.offenceAt_before source lines content (Nat.le_of_lt_succ hlt)]
  exact hbefore earlier

/-- There is at most one first offence. -/
theorem FirstOffence.unique {lines : List (Except FileError (List UInt8))} {line line' : Nat}
    {failure failure' : Failure} (h : demand.FirstOffence source lines line failure)
    (h' : demand.FirstOffence source lines line' failure') : failure = failure' := by
  have hline : line = line' := by
    rcases Nat.lt_trichotomy line line' with hlt | heq | hgt
    · have hnone := h'.first line hlt
      rw [h.offends] at hnone
      cases hnone
    · exact heq
    · have hnone := h.first line' hgt
      rw [h'.offends] at hnone
      cases hnone
  subst hline
  exact Option.some.inj (h.offends.symm.trans h'.offends)

/-- A failure by an offence names its line by itself. -/
theorem failsOn_iff {log : LogContent} {failure : Failure} :
    demand.FailsOn source log failure
      ↔ (∃ line, demand.FirstOffence source log.lines line failure)
        ∨ (∀ line, demand.offenceAt source log.lines line = none)
          ∧ demand.Lacks source (markersOn log.lines) failure := by
  constructor
  · rintro (⟨line, hfirst, -⟩ | ⟨hclean, hlacks⟩)
    · exact .inl ⟨line, hfirst⟩
    · exact .inr ⟨hclean, hlacks⟩
  · rintro (⟨line, hfirst⟩ | ⟨hclean, hlacks⟩)
    · exact .offence line hfirst (demand.place_of_offenceAt source hfirst.offends)
    · exact .lack hclean hlacks

end Demand

/-! ## Visitors that enforce a demand -/

section Visitors

variable {σ : Type} {visit : Nat → Marker → σ → Progress σ Failure} {start : σ} {demand : Demand}
  {source : String} {Inv : List Marker → σ → Prop}

/-- A visitor enforces a demand: in a state that `Inv` ties to the markers so far
    it stops at a marker exactly with what the demand finds wrong with it, and
    otherwise comes to a state that is tied to one marker more. -/
structure Enforces (visit : Nat → Marker → σ → Progress σ Failure) (start : σ) (demand : Demand)
    (source : String) (Inv : List Marker → σ → Prop) : Prop where
  inv_nil : Inv [] start
  stop_eq : ∀ {past state}, Inv past state → ∀ line marker,
    (visit line marker state).stop = demand.refusal source past line marker
  inv_concat : ∀ {past state}, Inv past state → ∀ line marker,
    demand.refusal source past line marker = none →
      Inv (past ++ [marker]) (visit line marker state).state

/-- One line is enough to see it: the scan of a line stops exactly with what is
    wrong with the line. -/
theorem Enforces.line (h : Enforces visit start demand source Inv) {past : List Marker} {state : σ}
    (hstate : Inv past state) (line : Nat) (content : Except FileError (List UInt8)) :
    (scan (Failure.ofLine source) visit (findOn (content, line)).toList state).stop
        = demand.offence source past line content
      ∧ (demand.offence source past line content = none →
        Inv (past ++ markersOn [content])
          (scan (Failure.ofLine source) visit (findOn (content, line)).toList state).state) := by
  cases content with
  | error error => exact ⟨rfl, nofun⟩
  | ok bytes =>
      have hmarkers : markersOn [.ok bytes] = (markerOn bytes).toList := by
        have hcontent : (Except.ok bytes : Except FileError _).toOption.bind markerOn
            = markerOn bytes := rfl
        simp only [markersOn, List.filterMap_cons, List.filterMap_nil, hcontent]
        cases markerOn bytes <;> rfl
      rw [findOn_ok, hmarkers]
      simp only [Demand.offence, markerOn]
      cases readLine bytes with
      | error error => exact ⟨rfl, nofun⟩
      | ok found =>
          cases found with
          | none => exact ⟨rfl, fun _ => (List.append_nil past).symm ▸ hstate⟩
          | some marker =>
              show (scan _ visit [⟨line, .ok marker⟩] state).stop = _ ∧ (_ → Inv _ (scan _ visit
                [⟨line, .ok marker⟩] state).state)
              rw [scan_marker]
              exact ⟨h.stop_eq hstate line marker, h.inv_concat hstate line marker⟩

/-- **SCANS THAT ENFORCE**: a scan of some lines goes through only if no line
    offends, and is then in a state that belongs to their markers; if it stops,
    it is with the first offence. -/
theorem Enforces.verdict (h : Enforces visit start demand source Inv)
    (lines : List (Except FileError (List UInt8))) :
    ((scan (Failure.ofLine source) visit (foundOn lines) start).stop = none →
        (∀ line, demand.offenceAt source lines line = none)
          ∧ Inv (markersOn lines) (scan (Failure.ofLine source) visit (foundOn lines) start).state)
      ∧ ∀ failure, (scan (Failure.ofLine source) visit (foundOn lines) start).stop = some failure →
        ∃ line, demand.FirstOffence source lines line failure := by
  induction lines using List.reverseRecOn with
  | nil =>
      refine ⟨fun _ => ⟨fun line => ?_, h.inv_nil⟩, nofun⟩
      cases line <;> rfl
  | append_singleton lines content ih =>
      obtain ⟨hclean, hfirst⟩ := ih
      rw [foundOn_concat, scan_append, markersOn_append]
      generalize scan (Failure.ofLine source) visit (foundOn lines) start = reached
        at hclean hfirst ⊢
      obtain ⟨state, stop⟩ := reached
      cases stop with
      | some reason =>
          -- the scan has stopped before, at a line that is still the first
          refine ⟨nofun, ?_⟩
          intro failure heq
          obtain rfl := Option.some.inj heq
          obtain ⟨line, hoffence⟩ := hfirst reason rfl
          exact ⟨line, hoffence.concat content⟩
      | none =>
          obtain ⟨hbefore, hstate⟩ := hclean rfl
          obtain ⟨hstop, hinv⟩ := h.line hstate (lines.length + 1) content
          rw [Progress.andThen_going]
          rw [← demand.offenceAt_concat source lines content] at hstop hinv
          constructor
          · intro hnone
            rw [hstop] at hnone
            exact ⟨Demand.clean_concat hbefore hnone, hinv hnone⟩
          · intro failure hsome
            rw [hstop] at hsome
            exact ⟨_, Demand.firstOffence_concat hbefore hsome⟩

/-- A scan stops exactly with the first offence. -/
theorem Enforces.stop_eq_some_iff (h : Enforces visit start demand source Inv) (log : LogContent)
    (failure : Failure) :
    (scan (Failure.ofLine source) visit log.findings start).stop = some failure
      ↔ ∃ line, demand.FirstOffence source log.lines line failure := by
  obtain ⟨hclean, hfirst⟩ := h.verdict log.lines
  rw [← findings_eq] at hclean hfirst
  refine ⟨hfirst failure, ?_⟩
  rintro ⟨line, hoffence⟩
  cases hstop : (scan (Failure.ofLine source) visit log.findings start).stop with
  | none =>
      have hnone := (hclean hstop).1 line
      rw [hoffence.offends] at hnone
      cases hnone
  | some reason =>
      obtain ⟨line', hoffence'⟩ := hfirst reason hstop
      rw [hoffence'.unique hoffence]

/-- **FAILING ANALYSES**: an analysis that ends with the reason for which its scan
    has stopped, or else with what its visitor makes of its state, fails exactly
    as the demand says, if what it makes of a state fails by what is lacking. -/
theorem Enforces.outcome_eq_error_iff {α : Type} (h : Enforces visit start demand source Inv)
    (finish : σ → Except Failure α)
    (hfinish : ∀ {markers state}, Inv markers state →
      ∀ failure, finish state = .error failure ↔ demand.Lacks source markers failure)
    (log : LogContent) (failure : Failure) :
    (match (scan (Failure.ofLine source) visit log.findings start).stop with
      | some reason => .error reason
      | none => finish (scan (Failure.ofLine source) visit log.findings start).state)
        = Except.error failure
      ↔ demand.FailsOn source log failure := by
  have hiff := h.stop_eq_some_iff log failure
  obtain ⟨hclean, hfirst⟩ := h.verdict log.lines
  rw [← findings_eq] at hclean hfirst
  rw [Demand.failsOn_iff, ← hiff]
  generalize scan (Failure.ofLine source) visit log.findings start = scanned at hclean hfirst ⊢
  obtain ⟨state, stop⟩ := scanned
  cases stop with
  | none =>
      obtain ⟨hnone, hstate⟩ := hclean rfl
      show finish state = .error failure ↔ _
      rw [hfinish hstate]
      constructor
      · intro hlack
        exact .inr ⟨hnone, hlack⟩
      · rintro (heq | ⟨-, hlack⟩)
        · cases heq
        · exact hlack
  | some reason =>
      constructor
      · intro heq
        exact .inl (congrArg some (Except.error.inj heq))
      · rintro (heq | ⟨hnone, -⟩)
        · exact congrArg Except.error (Option.some.inj heq)
        · -- the scan has stopped at a line, so a line offends
          obtain ⟨line, hoffence⟩ := hfirst reason rfl
          have habsent := hnone line
          rw [hoffence.offends] at habsent
          cases habsent

end Visitors

/-! ## The three analyses of a log -/

/-- The tracker of steps enforces no more than that the lines can be used. -/
theorem enforces_steps (source : String) :
    Enforces (fun line marker tracker => ⟨StepTracker.observe line marker tracker, none⟩)
      { source } Demand.steps source fun _ _ => True where
  inv_nil := trivial
  stop_eq := fun _ _ _ => rfl
  inv_concat := fun _ _ _ _ => trivial

/-- The accumulator of waits refuses what the demand on waits refuses. -/
theorem WaitSums.stop_eq {cycles : Nat} {past : List Marker} {waits : WaitSums cycles}
    (hsums : waits.Of past) (source : String) (line : Nat) (marker : Marker) :
    (waits.observe source line marker).stop
      = (Demand.waits cycles).refusal source past line marker := by
  cases marker with
  | waiting cycle wait =>
      rw [WaitSums.observe_waiting]
      show _ = if cycle < cycles then _ else _
      by_cases hknown : cycle < cycles
      · rw [dif_pos hknown, if_pos hknown, hsums cycle hknown]
        by_cases hfits : Signed64 ((waitsOf cycle past).sum + wait)
        · rw [if_pos hfits, if_pos hfits]
        · rw [if_neg hfits, if_neg hfits]
      · rw [dif_neg hknown, if_neg hknown]
  | _ => rfl

/-- The accumulator of waits enforces the demand on waits, with the sums that
    belong to the markers as its state. -/
theorem enforces_waits (source : String) (cycles : Nat) :
    Enforces (WaitSums.observe source) (WaitSums.zero cycles) (Demand.waits cycles) source
      WaitSums.Of where
  inv_nil := (follows_waits source cycles).inv_nil
  stop_eq := fun hsums line marker => WaitSums.stop_eq hsums source line marker
  inv_concat := by
    intro past waits hsums line marker hnone
    rw [← WaitSums.stop_eq hsums] at hnone
    exact hsums.observe source line hnone

/-- The table of bounds refuses what the demand on bounds refuses. -/
theorem CycleBounds.stop_eq {cycles : Nat} (past : List Marker) (bounds : CycleBounds cycles)
    (source : String) (line : Nat) (marker : Marker) :
    (bounds.observe source line marker).stop
      = (Demand.bounds cycles).refusal source past line marker := by
  cases marker with
  | startCycle cycle timestamp =>
      rw [CycleBounds.observe_start]
      show _ = if cycle < cycles then _ else _
      by_cases hknown : cycle < cycles
      · rw [dif_pos hknown, if_pos hknown]
      · rw [dif_neg hknown, if_neg hknown]
  | endId cycle timestamp =>
      rw [CycleBounds.observe_end]
      show _ = if cycle < cycles then _ else _
      by_cases hknown : cycle < cycles
      · rw [dif_pos hknown, if_pos hknown]
      · rw [dif_neg hknown, if_neg hknown]
  | _ => rfl

/-- The table of bounds enforces the demand on bounds, with the last timestamps
    as its state. -/
theorem enforces_bounds (source : String) (cycles : Nat) :
    Enforces (CycleBounds.observe source) (CycleBounds.unset cycles) (Demand.bounds cycles) source
      CycleBounds.Of where
  inv_nil := (follows_bounds source cycles).inv_nil
  stop_eq := fun _ line marker => CycleBounds.stop_eq _ _ source line marker
  inv_concat := by
    intro past bounds hbounds line marker hnone bound cycle hcycle
    rw [← CycleBounds.stop_eq past bounds source line, CycleBounds.stop_iff] at hnone
    rw [CycleBounds.times_observe source line marker bounds hnone, lastBound_concat,
      hbounds bound cycle hcycle]

/-- A log is found unusable for the steps exactly as the demand says. -/
theorem trackSteps_stop_iff (source : String) (log : LogContent) (failure : Failure) :
    (trackSteps source log).stop = some failure ↔ Demand.steps.FailsOn source log failure := by
  rw [Demand.failsOn_iff]
  refine ((enforces_steps source).stop_eq_some_iff log failure).trans ?_
  exact ⟨.inl, fun h => h.resolve_right fun hlack => hlack.2⟩

/-- **FAILING WAITS**: a log has no wait sums exactly if it fails the demand on
    waits, and in that way. -/
theorem sumWaits_eq_error_iff (source : String) (cycles : Nat) (log : LogContent)
    (failure : Failure) :
    sumWaits source cycles log = .error failure
      ↔ (Demand.waits cycles).FailsOn source log failure := by
  refine (enforces_waits source cycles).outcome_eq_error_iff
    (fun waits => .ok waits.sums.toList) ?_ log failure
  -- sums that are there lack nothing
  intro markers waits _ failure
  constructor
  · intro heq
    cases heq
  · exact False.elim

/-- **FAILING BOUNDS**: a log has no durations exactly if it fails the demand on
    bounds, and in that way. -/
theorem measureCycles_eq_error_iff (source : String) (cycles : Nat) (log : LogContent)
    (failure : Failure) :
    measureCycles source cycles log = .error failure
      ↔ (Demand.bounds cycles).FailsOn source log failure := by
  exact (enforces_bounds source cycles).outcome_eq_error_iff (CycleBounds.durations source)
    (fun hbounds => CycleBounds.durations_eq_error_iff hbounds source) log failure

end RunTimings
