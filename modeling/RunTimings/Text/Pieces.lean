/-!
# Pieces — a sequence cut at each separator

A sequence is cut at every occurrence of a separator. There is always one piece more than there are
separators, so the sequence can be put together again (`joinPieces_pieces`).
-/

namespace RunTimings.Text

variable {α : Type} [DecidableEq α]

/-- The piece in front gains an item. -/
def extendHead (a : α) : List (List α) → List (List α)
  | [] => [[a]]
  | piece :: rest => (a :: piece) :: rest

/-- The runs of items between separators, in order. -/
def pieces (separator : α) (items : List α) : List (List α) :=
  items.foldr (fun a cut => if a = separator then [] :: cut else extendHead a cut) [[]]

/-- The pieces with a separator between each two of them. -/
def joinPieces (separator : α) : List (List α) → List α
  | [] => []
  | [piece] => piece
  | piece :: rest => piece ++ separator :: joinPieces separator rest

@[simp] theorem pieces_nil (separator : α) : pieces separator [] = [[]] := rfl

theorem pieces_cons (separator a : α) (items : List α) :
    pieces separator (a :: items) =
      if a = separator then [] :: pieces separator items
      else extendHead a (pieces separator items) := rfl

/-- Without a separator there is nothing to cut. -/
theorem pieces_of_not_mem {separator : α} {items : List α} (h : separator ∉ items) :
    pieces separator items = [items] := by
  induction items with
  | nil => rfl
  | cons a items ih =>
    rw [List.mem_cons, not_or] at h
    rw [pieces_cons, if_neg (Ne.symm h.1), ih h.2, extendHead]

/-- The first piece ends at the first separator. -/
theorem pieces_append_separator {separator : α} {piece : List α} (h : separator ∉ piece)
    (rest : List α) :
    pieces separator (piece ++ separator :: rest) = piece :: pieces separator rest := by
  induction piece with
  | nil => rw [List.nil_append, pieces_cons, if_pos rfl]
  | cons a piece ih =>
    rw [List.mem_cons, not_or] at h
    rw [List.cons_append, pieces_cons, if_neg (Ne.symm h.1), ih h.2, extendHead]

theorem pieces_ne_nil (separator : α) (items : List α) : pieces separator items ≠ [] := by
  cases items with
  | nil => simp
  | cons a items =>
    rw [pieces_cons]
    split
    · simp
    · cases pieces separator items <;> simp [extendHead]

/-- The pieces of two parts with a separator between them. -/
theorem pieces_append_cons (separator : α) (items rest : List α) :
    pieces separator (items ++ separator :: rest)
      = pieces separator items ++ pieces separator rest := by
  induction items with
  | nil => rw [List.nil_append, pieces_cons, if_pos rfl, pieces_nil, List.singleton_append]
  | cons a items ih =>
    rw [List.cons_append, pieces_cons, pieces_cons, ih]
    by_cases ha : a = separator
    · rw [if_pos ha, if_pos ha, List.cons_append]
    · rw [if_neg ha, if_neg ha]
      obtain ⟨first, more, hcut⟩ := List.exists_cons_of_ne_nil (pieces_ne_nil separator items)
      rw [hcut]
      rfl

/-- Cutting loses nothing but the separators, and these stand where two pieces meet. -/
theorem joinPieces_pieces (separator : α) (items : List α) :
    joinPieces separator (pieces separator items) = items := by
  induction items with
  | nil => rfl
  | cons a items ih =>
    have filled := pieces_ne_nil separator items
    rw [pieces_cons]
    cases cut : pieces separator items with
    | nil => exact absurd cut filled
    | cons piece rest =>
      rw [cut] at ih
      split
      · simp_all [joinPieces]
      · cases rest <;> simp_all [extendHead, joinPieces]

omit [DecidableEq α] in
/-- One piece more behind some others. -/
theorem joinPieces_concat {separator : α} {front : List (List α)} (h : front ≠ [])
    (piece : List α) :
    joinPieces separator (front ++ [piece]) = joinPieces separator front ++ separator :: piece := by
  induction front with
  | nil => exact absurd rfl h
  | cons first rest ih =>
    cases rest with
    | nil => rfl
    | cons second rest =>
      have joined := ih (List.cons_ne_nil second rest)
      simp only [List.cons_append] at joined
      simp only [List.cons_append, joinPieces, joined, List.append_assoc]

/-- The last piece is empty where nothing follows the last separator, and where there is nothing at
all. -/
theorem getLast?_pieces_eq_nil_iff {separator : α} {items : List α} :
    (pieces separator items).getLast? = some [] ↔
      items = [] ∨ items.getLast? = some separator := by
  constructor
  · intro h
    obtain ⟨front, cut⟩ := List.getLast?_eq_some_iff.mp h
    have joined := joinPieces_pieces separator items
    rw [cut] at joined
    by_cases alone : front = []
    · subst alone
      exact .inl joined.symm
    · rw [joinPieces_concat alone] at joined
      exact .inr (joined ▸ List.getLast?_concat)
  · rintro (rfl | h)
    · rfl
    · obtain ⟨front, rfl⟩ := List.getLast?_eq_some_iff.mp h
      rw [pieces_append_cons, pieces_nil]
      exact List.getLast?_concat

/-- Different sequences are cut into different pieces. -/
theorem pieces_inj {separator : α} {items others : List α} :
    pieces separator items = pieces separator others ↔ items = others := by
  refine ⟨fun h => ?_, congrArg _⟩
  rw [← joinPieces_pieces separator items, h, joinPieces_pieces]

/-- A piece holds no separator. -/
theorem not_mem_of_mem_pieces {separator : α} {items piece : List α}
    (h : piece ∈ pieces separator items) : separator ∉ piece := by
  induction items generalizing piece with
  | nil => simp_all
  | cons a items ih =>
    rw [pieces_cons] at h
    split at h
    · rcases List.mem_cons.1 h with rfl | h
      · simp
      · exact ih h
    · rename_i ne
      cases cut : pieces separator items with
      | nil => exact absurd cut (pieces_ne_nil separator items)
      | cons first rest =>
        rw [cut, extendHead, List.mem_cons] at h
        rcases h with rfl | h
        · have : separator ∉ first := ih (by simp [cut])
          simp_all [eq_comm]
        · exact ih (by simp [cut, h])

end RunTimings.Text
