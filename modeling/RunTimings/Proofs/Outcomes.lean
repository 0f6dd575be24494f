import Mathlib.Data.List.Forall2
import RunTimings.Journal

/-! # Outcomes of chained computations — success and failure taken apart

    A chain of computations comes out well exactly if each of its links does,
    and then with what the links give; otherwise it fails as the first link that
    does not.  Two statements for each way in which links are chained here: one
    after the other, and the same for every item of a list. -/

namespace RunTimings

variable {α β ε : Type}

/-- Two steps come out well if the first does and the second does from there. -/
theorem bind_eq_ok_iff {first : Except ε α} {next : α → Except ε β} {result : β} :
    first.bind next = .ok result ↔ ∃ a, first = .ok a ∧ next a = .ok result := by
  cases first with
  | error failure =>
      constructor
      · intro h
        cases h
      · rintro ⟨_, heq, _⟩
        cases heq
  | ok a =>
      constructor
      · intro h
        exact ⟨a, rfl, h⟩
      · rintro ⟨_, heq, h⟩
        cases heq
        exact h

/-- Two checked values go into a result if both are there. -/
theorem bind_bind_eq_ok_iff {γ : Type} {first : Except ε α} {second : Except ε β}
    {make : α → β → γ} {result : γ} :
    (first.bind fun a => second.bind fun b => .ok (make a b)) = .ok result
      ↔ ∃ a b, first = .ok a ∧ second = .ok b ∧ make a b = result := by
  rw [bind_eq_ok_iff]
  constructor
  · rintro ⟨a, ha, h⟩
    obtain ⟨b, hb, heq⟩ := bind_eq_ok_iff.mp h
    cases heq
    exact ⟨a, b, ha, hb, rfl⟩
  · rintro ⟨a, b, ha, hb, rfl⟩
    exact ⟨a, ha, bind_eq_ok_iff.mpr ⟨b, hb, rfl⟩⟩

/-- Two journaled steps come out well if the first does and the second does
    from there, whatever is noted on the way. -/
theorem Journaled.andThen_eq_ok_iff {first : Journaled α} {next : α → Journaled β}
    {result : β} :
    (first.andThen next).outcome = .ok result
      ↔ ∃ a, first.outcome = .ok a ∧ (next a).outcome = .ok result := by
  rw [Journaled.outcome_andThen, bind_eq_ok_iff]

/-- A list of checked items comes out well exactly if every item does. -/
theorem mapM_eq_ok_iff {f : α → Except ε β} {items : List α} {results : List β} :
    items.mapM f = .ok results
      ↔ List.Forall₂ (fun item result => f item = .ok result) items results := by
  induction items generalizing results with
  | nil =>
      rw [List.mapM_nil, List.forall₂_nil_left_iff]
      exact ⟨fun h => by cases h; rfl, fun h => by rw [h]; rfl⟩
  | cons item rest ih =>
      rw [List.mapM_cons, List.forall₂_cons_left_iff]
      show (f item).bind (fun b => (rest.mapM f).bind fun bs => .ok (b :: bs)) = .ok results ↔ _
      rw [bind_eq_ok_iff]
      constructor
      · rintro ⟨b, hb, h⟩
        obtain ⟨bs, hbs, heq⟩ := bind_eq_ok_iff.mp h
        cases heq
        exact ⟨b, bs, hb, ih.mp hbs, rfl⟩
      · rintro ⟨b, bs, hb, hbs, rfl⟩
        exact ⟨b, hb, bind_eq_ok_iff.mpr ⟨bs, ih.mpr hbs, rfl⟩⟩

/-- Items that all pass a check, each beside its own value. -/
theorem forall₂_eq_map_iff {p : α → Prop} {g : α → β} {items : List α} {results : List β} :
    List.Forall₂ (fun item result => p item ∧ result = g item) items results
      ↔ (∀ item ∈ items, p item) ∧ results = items.map g := by
  induction items generalizing results with
  | nil => simp
  | cons item rest ih =>
      rw [List.forall₂_cons_left_iff, List.forall_mem_cons, List.map_cons]
      constructor
      · rintro ⟨_, results, ⟨hitem, rfl⟩, hrest, rfl⟩
        obtain ⟨hall, rfl⟩ := ih.mp hrest
        exact ⟨⟨hitem, hall⟩, rfl⟩
      · rintro ⟨⟨hitem, hall⟩, rfl⟩
        exact ⟨g item, rest.map g, ⟨hitem, rfl⟩, ih.mpr ⟨hall, rfl⟩, rfl⟩

/-- There are results for all items exactly if there is one for each. -/
theorem exists_forall₂_iff {R : α → β → Prop} {items : List α} :
    (∃ results, List.Forall₂ R items results) ↔ ∀ item ∈ items, ∃ result, R item result := by
  induction items with
  | nil => simp
  | cons item rest ih =>
      rw [List.forall_mem_cons, ← ih]
      simp only [List.forall₂_cons_left_iff]
      constructor
      · rintro ⟨_, result, results, hresult, hresults, rfl⟩
        exact ⟨⟨result, hresult⟩, results, hresults⟩
      · rintro ⟨⟨result, hresult⟩, results, hresults⟩
        exact ⟨_, result, results, hresult, hresults, rfl⟩

/-- A row of checked places comes out well exactly if every place does. -/
theorem mapM_finRange_eq_ok_iff {n : Nat} {f : Fin n → Except ε β} {results : List β} :
    (List.finRange n).mapM f = .ok results
      ↔ results.length = n ∧ ∀ place, (h : place < n) →
        ∃ result, f ⟨place, h⟩ = .ok result ∧ results[place]? = some result := by
  rw [mapM_eq_ok_iff, List.forall₂_iff_get]
  simp only [List.length_finRange, List.get_eq_getElem, List.getElem_finRange, Fin.cast_mk]
  constructor
  · rintro ⟨hlength, hall⟩
    refine ⟨hlength.symm, ?_⟩
    intro place h
    have hlt : place < results.length := hlength ▸ h
    exact ⟨results[place], hall place h hlt, List.getElem?_eq_getElem hlt⟩
  · rintro ⟨hlength, hall⟩
    refine ⟨hlength.symm, ?_⟩
    intro place h hlt
    obtain ⟨result, hok, hget⟩ := hall place h
    rw [List.getElem?_eq_getElem hlt] at hget
    rw [hok, ← Option.some.inj hget]

/-- The same journaled step for every item comes out well exactly if it does for
    each of them. -/
theorem Journaled.each_eq_ok_iff {f : α → Journaled β} {items : List α} {results : List β} :
    (Journaled.each f items).outcome = .ok results
      ↔ List.Forall₂ (fun item result => (f item).outcome = .ok result) items results := by
  induction items generalizing results with
  | nil =>
      rw [List.forall₂_nil_left_iff]
      exact ⟨fun h => by cases h; rfl, fun h => by rw [h]; rfl⟩
  | cons item rest ih =>
      rw [List.forall₂_cons_left_iff]
      show ((f item).andThen fun b =>
        (Journaled.each f rest).andThen fun bs => .done (b :: bs)).outcome = .ok results ↔ _
      rw [Journaled.andThen_eq_ok_iff]
      constructor
      · rintro ⟨b, hb, h⟩
        obtain ⟨bs, hbs, heq⟩ := Journaled.andThen_eq_ok_iff.mp h
        cases heq
        exact ⟨b, bs, hb, ih.mp hbs, rfl⟩
      · rintro ⟨b, bs, hb, hbs, rfl⟩
        exact ⟨b, hb, Journaled.andThen_eq_ok_iff.mpr ⟨bs, ih.mpr hbs, rfl⟩⟩

/-! ## Failure -/

/-- Two steps fail as the first does, or as the second does from there. -/
theorem bind_eq_error_iff {first : Except ε α} {next : α → Except ε β} {reason : ε} :
    first.bind next = .error reason
      ↔ first = .error reason ∨ ∃ a, first = .ok a ∧ next a = .error reason := by
  cases first with
  | error failure =>
      constructor
      · intro h
        cases h
        exact .inl rfl
      · rintro (heq | ⟨_, heq, _⟩)
        · cases heq
          rfl
        · cases heq
  | ok a =>
      constructor
      · intro h
        exact .inr ⟨a, rfl, h⟩
      · rintro (heq | ⟨_, heq, h⟩)
        · cases heq
        · cases heq
          exact h

/-- Two journaled steps fail as the first does, or as the second does from
    there. -/
theorem Journaled.andThen_eq_error_iff {first : Journaled α} {next : α → Journaled β}
    {failure : Failure} :
    (first.andThen next).outcome = .error failure
      ↔ first.outcome = .error failure
        ∨ ∃ a, first.outcome = .ok a ∧ (next a).outcome = .error failure := by
  rw [Journaled.outcome_andThen, bind_eq_error_iff]

/-- What never fails adds no failure to what goes before. -/
theorem Journaled.andThen_sure_eq_error_iff {first : Journaled α} {next : α → Journaled β}
    {failure : Failure} (h : ∀ a, (next a).outcome ≠ .error failure) :
    (first.andThen next).outcome = .error failure ↔ first.outcome = .error failure := by
  rw [Journaled.andThen_eq_error_iff]
  constructor
  · rintro (hfirst | ⟨a, -, hnext⟩)
    · exact hfirst
    · exact absurd hnext (h a)
  · exact .inl

/-- A check comes out well exactly if it does not fail. -/
theorem exists_eq_ok_iff {outcome : Except ε α} :
    (∃ a, outcome = .ok a) ↔ ∀ reason, outcome ≠ .error reason := by
  cases outcome with
  | error failure =>
      constructor
      · rintro ⟨_, heq⟩
        cases heq
      · intro h
        exact absurd rfl (h failure)
  | ok a =>
      constructor
      · rintro - reason heq
        cases heq
      · intro _
        exact ⟨a, rfl⟩

/-- Checked items fail as the first of them that does. -/
theorem mapM_eq_error_iff {f : α → Except ε β} {items : List α} {reason : ε} :
    items.mapM f = .error reason
      ↔ ∃ place, ∃ h : place < items.length, f items[place] = .error reason
        ∧ ∀ earlier, (he : earlier < place) → ∃ b, f items[earlier] = .ok b := by
  induction items with
  | nil =>
      constructor
      · intro heq
        cases heq
      · rintro ⟨_, h, -⟩
        cases h
  | cons item rest ih =>
      rw [List.mapM_cons]
      show (f item).bind (fun b => (rest.mapM f).bind fun bs => .ok (b :: bs)) = .error reason ↔ _
      rw [bind_eq_error_iff]
      constructor
      · rintro (hitem | ⟨b, hb, hrest⟩)
        · exact ⟨0, Nat.zero_lt_succ _, hitem, fun earlier he => absurd he (Nat.not_lt_zero _)⟩
        · rcases bind_eq_error_iff.mp hrest with hfail | ⟨_, -, heq⟩
          · obtain ⟨place, h, hplace, hearlier⟩ := ih.mp hfail
            refine ⟨place + 1, Nat.succ_lt_succ h, hplace, ?_⟩
            intro earlier he
            cases earlier with
            | zero => exact ⟨b, hb⟩
            | succ earlier => exact hearlier earlier (Nat.lt_of_succ_lt_succ he)
          · cases heq
      · rintro ⟨place, h, hplace, hearlier⟩
        cases place with
        | zero => exact .inl hplace
        | succ place =>
            obtain ⟨b, hb⟩ := hearlier 0 (Nat.zero_lt_succ _)
            refine .inr ⟨b, hb, bind_eq_error_iff.mpr (.inl (ih.mpr ?_))⟩
            exact ⟨place, Nat.lt_of_succ_lt_succ h, hplace,
              fun earlier he => hearlier (earlier + 1) (Nat.succ_lt_succ he)⟩

/-- A row of checked places fails as the first of them that does. -/
theorem mapM_finRange_eq_error_iff {n : Nat} {f : Fin n → Except ε β} {reason : ε} :
    (List.finRange n).mapM f = .error reason
      ↔ ∃ place, ∃ h : place < n, f ⟨place, h⟩ = .error reason
        ∧ ∀ earlier, (he : earlier < place) → ∃ b, f ⟨earlier, Nat.lt_trans he h⟩ = .ok b := by
  rw [mapM_eq_error_iff]
  simp only [List.length_finRange, List.getElem_finRange, Fin.cast_mk]

/-- The same journaled step for every item fails as the first item for which it
    does. -/
theorem Journaled.each_eq_error_iff {f : α → Journaled β} {items : List α} {failure : Failure} :
    (Journaled.each f items).outcome = .error failure
      ↔ ∃ before item after, items = before ++ item :: after
        ∧ (∀ earlier ∈ before, ∃ b, (f earlier).outcome = .ok b)
        ∧ (f item).outcome = .error failure := by
  induction items with
  | nil =>
      constructor
      · intro heq
        cases heq
      · rintro ⟨before, item, after, heq, -⟩
        exact absurd heq (by simp)
  | cons item rest ih =>
      show ((f item).andThen fun b =>
        (Journaled.each f rest).andThen fun bs => .done (b :: bs)).outcome = .error failure ↔ _
      rw [Journaled.andThen_eq_error_iff]
      constructor
      · rintro (hitem | ⟨b, hb, hrest⟩)
        · exact ⟨[], item, rest, rfl, fun _ hmem => absurd hmem List.not_mem_nil, hitem⟩
        · rcases Journaled.andThen_eq_error_iff.mp hrest with hfail | ⟨_, -, heq⟩
          · obtain ⟨before, last, after, rfl, hbefore, hlast⟩ := ih.mp hfail
            exact ⟨item :: before, last, after, rfl,
              List.forall_mem_cons.mpr ⟨⟨b, hb⟩, hbefore⟩, hlast⟩
          · cases heq
      · rintro ⟨before, last, after, hsplit, hbefore, hlast⟩
        cases before with
        | nil =>
            obtain ⟨rfl, rfl⟩ := List.cons.inj hsplit
            exact .inl hlast
        | cons first before =>
            obtain ⟨rfl, rfl⟩ := List.cons.inj hsplit
            obtain ⟨⟨b, hb⟩, hbefore⟩ := List.forall_mem_cons.mp hbefore
            exact .inr ⟨b, hb, Journaled.andThen_eq_error_iff.mpr
              (.inl (ih.mpr ⟨before, last, after, rfl, hbefore, hlast⟩))⟩

/-- Items that come out alike, except that failures are told in other words, do so
    in a row as well. -/
theorem mapM_mapError {ε' : Type} {f : α → Except ε β} {g : α → Except ε' β} {wrap : ε → ε'}
    (items : List α) (h : ∀ item, g item = (f item).mapError wrap) :
    items.mapM g = (items.mapM f).mapError wrap := by
  induction items with
  | nil => rfl
  | cons item rest ih =>
      rw [List.mapM_cons, List.mapM_cons, h, ih]
      cases f item with
      | error error => rfl
      | ok b =>
          cases rest.mapM f with
          | error error => rfl
          | ok bs => rfl

end RunTimings
