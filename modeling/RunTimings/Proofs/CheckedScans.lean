import RunTimings.Proofs.CycleLines
import RunTimings.Proofs.LogReading

/-! # Checked scans — slots and numbers looked at before they are used

    A table is used by place and a difference is taken without asking whether
    the place is in the table or the difference fits.  To say that neither can go
    wrong, the same operations are written down with a check of their own, which
    cuts the run short where the plain operation would be undefined.

    * `fetch`, `store` and `fit` are the checks, `CutOff` what they end in.
    * `sound_of_found` — the numbers that a log can bring: a timestamp is never
      negative, and nothing exceeds 64 bits.
    * `KeepsPace` is what a checked visitor has to prove of single markers, so
      that its scan of a log comes out as the plain scan does
      (`KeepsPace.scan_log`). -/

namespace RunTimings

/-! ## Checks -/

/-- How a checked run is cut short: by a failure that the plain run ends in as
    well, by a place that a table does not have, or by a number that does not
    fit. -/
inductive CutOff where
  | refused (failure : Failure)
  | noSlot (place slots : Nat)
  | doesNotFit (number : Int)
deriving DecidableEq, Repr

/-- Reads a slot of a table. -/
def fetch {α : Type} {n : Nat} (slots : Vector α n) (place : Nat) : Except CutOff α :=
  match slots[place]? with
  | some a => .ok a
  | none => .error (.noSlot place n)

/-- Writes a slot of a table. -/
def store {α : Type} {n : Nat} (slots : Vector α n) (place : Nat) (a : α) :
    Except CutOff (Vector α n) :=
  if h : place < n then .ok (slots.set place a h) else .error (.noSlot place n)

/-- The number, if it is in a range. -/
def fit (Range : Int → Prop) [DecidablePred Range] (number : Int) : Except CutOff Int :=
  if Range number then .ok number else .error (.doesNotFit number)

theorem fetch_of_lt {α : Type} {n place : Nat} (slots : Vector α n) (h : place < n) :
    fetch slots place = .ok slots[place] := by
  simp only [fetch]
  rw [Vector.getElem?_eq_getElem h]

theorem store_of_lt {α : Type} {n place : Nat} (slots : Vector α n) (a : α) (h : place < n) :
    store slots place a = .ok (slots.set place a h) :=
  dif_pos h

theorem fit_of {Range : Int → Prop} [DecidablePred Range] {number : Int} (h : Range number) :
    fit Range number = .ok number :=
  if_pos h

/-! ## The numbers of a log -/

/-- A timestamp as a log can bring it: not negative, and within 64 bits. -/
abbrev IsTime (t : Int) : Prop :=
  0 ≤ t ∧ t < 0x8000000000000000

/-- The time between two timestamps fits 64 bits, whichever is the later one. -/
theorem IsTime.sub {a b : Int} (ha : IsTime a) (hb : IsTime b) : Signed64 (a - b) := by
  obtain ⟨ha, _⟩ := ha
  obtain ⟨hb, _⟩ := hb
  exact Signed64.sub ⟨by omega, by omega⟩ ⟨by omega, by omega⟩ ha hb

/-- The number of a marker is in its range; only a wait may be negative. -/
def Marker.Sound : Marker → Prop
  | .beginStep _ timestamp => IsTime timestamp
  | .endStep _ timestamp => IsTime timestamp
  | .startCycle _ timestamp => IsTime timestamp
  | .endId _ timestamp => IsTime timestamp
  | .waiting _ wait => Signed64 wait

/-- A numeral without a sign is read as a timestamp. -/
theorem isTime_of_readSigned {field : NumberField} {numeral : List Char} {n : Int}
    (hnumeral : IsNumeral numeral) (h : readSigned field numeral = .ok n) : IsTime n := by
  rw [hnumeral.readSigned] at h
  by_cases hbig : 0x7fffffffffffffff < Numeral.value numeral
  · rw [if_pos hbig] at h
    cases h
  · rw [if_neg hbig] at h
    obtain rfl := Except.ok.inj h
    exact ⟨by omega, by omega⟩

/-- **NUMBERS**: whatever marker a line reports, its number is in its range; the
    form of the line leaves no room for a sign in front of a timestamp. -/
theorem sound_of_classify {line : List Char} {marker : Marker}
    (h : classify line = .ok (some marker)) : marker.Sound := by
  obtain ⟨written, hform, hread⟩ := classify_eq_some_iff.mp h
  cases written with
  | beginStep step time =>
      have hspells : StepEdge.start.Spells step time _ := recognise_eq_written_iff.mp hform
      obtain ⟨_, _, _, -, -, htime, -⟩ := hspells
      obtain ⟨_, n, -, hn, rfl⟩ := bind_bind_eq_ok_iff.mp hread
      exact isTime_of_readSigned htime hn
  | endStep step time =>
      have hspells : StepEdge.finish.Spells step time _ := recognise_eq_written_iff.mp hform
      obtain ⟨_, _, _, -, -, htime, -⟩ := hspells
      obtain ⟨_, n, -, hn, rfl⟩ := bind_bind_eq_ok_iff.mp hread
      exact isTime_of_readSigned htime hn
  | startCycle cycle time =>
      have hspells : CycleEvent.start.Spells cycle time _ := recognise_eq_cycle_iff.mp hform
      obtain ⟨_, _, -, -, -, htime, -⟩ := hspells
      obtain ⟨_, n, -, hn, rfl⟩ := bind_bind_eq_ok_iff.mp hread
      exact isTime_of_readSigned htime hn
  | endId cycle time =>
      have hspells : CycleEvent.finish.Spells cycle time _ := recognise_eq_cycle_iff.mp hform
      obtain ⟨_, _, -, -, -, htime, -⟩ := hspells
      obtain ⟨_, n, -, hn, rfl⟩ := bind_bind_eq_ok_iff.mp hread
      exact isTime_of_readSigned htime hn
  | waiting cycle wait =>
      obtain ⟨_, n, -, hn, rfl⟩ := bind_bind_eq_ok_iff.mp hread
      exact signed64_of_readSigned hn

/-- The same of the findings of a log. -/
theorem sound_of_found {log : LogContent} {line : Nat} {marker : Marker}
    (h : ⟨line, .ok marker⟩ ∈ log.findings) : marker.Sound := by
  obtain ⟨⟨content, number⟩, -, hfound⟩ := List.mem_filterMap.mp h
  cases content with
  | error error => cases hfound
  | ok bytes =>
      rw [findOn_ok] at hfound
      cases hread : readLine bytes with
      | error error =>
          rw [hread] at hfound
          cases hfound
      | ok found =>
          rw [hread] at hfound
          cases found with
          | none => cases hfound
          | some reported =>
              cases hfound
              exact sound_of_classify hread

/-! ## Checked visitors -/

section Visitors

variable {σ ε : Type}

/-- What a scan comes to: where the visitor stands, or why it has stopped. -/
def Progress.outcome (p : Progress σ ε) : Except ε σ :=
  match p.stop with
  | none => .ok p.state
  | some reason => .error reason

/-- A scan by a visitor that may be cut short at every marker. -/
def checkedScan (source : String) (visit : Nat → Marker → σ → Except CutOff σ) :
    List Finding → σ → Except CutOff σ
  | [], state => .ok state
  | ⟨line, .error fault⟩ :: _, _ => .error (.refused (Failure.ofLine source line fault))
  | ⟨line, .ok marker⟩ :: rest, state =>
      (visit line marker state).bind (checkedScan source visit rest)

/-- A checked visitor keeps pace with a plain one: at a sound marker and in a
    state that `Inv` admits it does the same, and such states are not left. -/
structure KeepsPace (checked : Nat → Marker → σ → Except CutOff σ)
    (visit : Nat → Marker → σ → Progress σ Failure) (Inv : σ → Prop) : Prop where
  agrees : ∀ line {marker state}, Inv state → Marker.Sound marker →
    checked line marker state = (visit line marker state).outcome.mapError .refused
  keeps : ∀ line {marker state}, Inv state → Marker.Sound marker →
    Inv (visit line marker state).state

variable {checked : Nat → Marker → σ → Except CutOff σ}
  {visit : Nat → Marker → σ → Progress σ Failure} {Inv : σ → Prop}

/-- **SCANS THAT KEEP PACE**: over findings with sound markers the checked scan
    comes out as the plain scan does, which ends in a state that is admitted. -/
theorem KeepsPace.scan_findings (h : KeepsPace checked visit Inv) (source : String)
    (findings : List Finding) (hsound : ∀ line marker, ⟨line, .ok marker⟩ ∈ findings →
      Marker.Sound marker) {start : σ} (hstart : Inv start) :
    checkedScan source checked findings start
        = (scan (Failure.ofLine source) visit findings start).outcome.mapError .refused
      ∧ Inv (scan (Failure.ofLine source) visit findings start).state := by
  induction findings generalizing start with
  | nil => exact ⟨rfl, hstart⟩
  | cons finding rest ih =>
      obtain ⟨line, fault | marker⟩ := finding
      · exact ⟨rfl, hstart⟩
      · have hmarker := hsound line marker List.mem_cons_self
        have hrest := fun line marker hmem => hsound line marker (List.mem_cons_of_mem _ hmem)
        have hreached := h.keeps line hstart hmarker
        rw [checkedScan, h.agrees line hstart hmarker, scan]
        -- a visit that stops ends both scans, and one that does not hands both on
        cases hvisit : visit line marker start with
        | mk reached stop =>
            rw [hvisit] at hreached
            cases stop with
            | none => exact ih hrest hreached
            | some reason => exact ⟨rfl, hreached⟩

/-- A checked visitor that keeps pace is never cut short in a log where the plain
    one is not. -/
theorem KeepsPace.scan_log (h : KeepsPace checked visit Inv) (source : String)
    (log : LogContent) {start : σ} (hstart : Inv start) :
    checkedScan source checked log.findings start
        = (scan (Failure.ofLine source) visit log.findings start).outcome.mapError .refused
      ∧ Inv (scan (Failure.ofLine source) visit log.findings start).state :=
  h.scan_findings source log.findings (fun _ _ hmem => sound_of_found hmem) hstart

end Visitors

end RunTimings
