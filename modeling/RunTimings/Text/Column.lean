/-!
# Columns — text filled up with spaces

A column is filled up to a width counted in characters. A text that is already wider stays as it is.
-/

namespace RunTimings.Text

/-- So many spaces. -/
def spaces (n : Nat) : String :=
  String.ofList (List.replicate n ' ')

/-- A text at the left end of a column. -/
def alignLeft (width : Nat) (text : String) : String :=
  text ++ spaces (width - text.length)

/-- A text at the right end of a column. -/
def alignRight (width : Nat) (text : String) : String :=
  spaces (width - text.length) ++ text

@[simp] theorem length_spaces (n : Nat) : (spaces n).length = n := by
  simp [spaces]

@[simp] theorem length_alignLeft (width : Nat) (text : String) :
    (alignLeft width text).length = max width text.length := by
  simp [alignLeft]
  omega

@[simp] theorem length_alignRight (width : Nat) (text : String) :
    (alignRight width text).length = max width text.length := by
  simp [alignRight]
  omega

end RunTimings.Text
