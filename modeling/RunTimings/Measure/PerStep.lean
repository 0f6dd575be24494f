import RunTimings.Marker.Basic

/-!
# Tables with one entry for each step
-/

namespace RunTimings

/-- One value for each step of a run. -/
abbrev PerStep (α : Type) := Vector α stepCount

namespace PerStep

variable {α β : Type}

/-- All steps in order. -/
def steps : List StepIndex :=
  List.finRange stepCount

/-- The table of a function on steps. -/
def ofFn (f : StepIndex → α) : PerStep α :=
  ⟨⟨steps.map f⟩, by simp [steps]⟩

/-- The table with every entry changed in the same way. -/
def map (f : α → β) (table : PerStep α) : PerStep β :=
  ofFn fun step => f (table.get step)

@[simp] theorem get_ofFn (f : StepIndex → α) (step : StepIndex) : (ofFn f).get step = f step := by
  simp only [ofFn, steps, Vector.get, List.getElem_toArray, List.getElem_map, List.getElem_finRange]
  rfl

@[simp] theorem get_map (f : α → β) (table : PerStep α) (step : StepIndex) :
    (map f table).get step = f (table.get step) :=
  get_ofFn _ step

/-- Changing one entry of a table leaves the others as they are. -/
theorem get_set (table : PerStep α) (changed step : StepIndex) (a : α) :
    (Vector.set table changed.val a changed.isLt).get step =
      if changed = step then a else table.get step := by
  show (Vector.set table changed.val a changed.isLt)[step.val] =
    if changed = step then a else table[step.val]
  rw [Vector.getElem_set]
  simp only [Fin.ext_iff]

/-- Tables are told apart by their entries. -/
theorem ext {a b : PerStep α} (h : ∀ step : StepIndex, a.get step = b.get step) :
    a = b :=
  Vector.ext fun place hplace => h ⟨place, hplace⟩

/-- Changing an entry and then all of them, or all of them and then that entry. -/
theorem map_set (f : α → β) (table : PerStep α) (step : StepIndex) (a : α) :
    map f (Vector.set table step.val a step.isLt)
      = Vector.set (map f table) step.val (f a) step.isLt := by
  refine PerStep.ext fun other => ?_
  rw [get_map, get_set, get_set, get_map]
  by_cases h : step = other
  · rw [if_pos h, if_pos h]
  · rw [if_neg h, if_neg h]

end PerStep

end RunTimings
