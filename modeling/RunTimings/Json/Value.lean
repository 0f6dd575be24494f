/-!
# JSON values

Whole numbers and binary64 numbers are kept apart, since they are written differently. The fields of
an object have an order.
-/

namespace RunTimings

/-- A JSON value. -/
inductive Json where
  | null
  | int (n : Int)
  | real (x : Float)
  | str (text : String)
  | arr (items : List Json)
  | obj (fields : List (String × Json))
deriving Repr

/-- A value that may be missing. -/
def Json.ofOption {α : Type} (f : α → Json) : Option α → Json
  | none => .null
  | some a => f a

/-- The values of a list. -/
def Json.ofList {α : Type} (f : α → Json) (items : List α) : Json :=
  .arr (items.map f)

end RunTimings
