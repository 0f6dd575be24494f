import RunTimings.Failure
import RunTimings.Text.Inert

/-!
# Journals — computations that take notes

An analysis takes notes on its way, each of some level of importance. It may fail, and what was
noted before the failure stays: the notes of two steps in a row are the notes of the first,
followed, if the first does not fail, by those of the second.
-/

namespace RunTimings

/-- How much a note matters, the most important level first. -/
inductive Level where
  | error
  | warn
  | info
  | debug
  | trace
deriving DecidableEq, Repr

/-- The place of a level; greater ones matter less. -/
def Level.rank : Level → Nat
  | .error => 0
  | .warn => 1
  | .info => 2
  | .debug => 3
  | .trace => 4

/-- The word for a level at the head of a note. -/
def Level.word : Level → String
  | .error => "ERROR"
  | .warn => "WARN"
  | .info => "INFO"
  | .debug => "DEBUG"
  | .trace => "TRACE"

/-- A note. -/
structure Note where
  level : Level
  text : String
deriving DecidableEq, Repr

/-- The line of a note. Its text may quote names, which must not steer the terminal. -/
def Note.line (note : Note) : String :=
  note.level.word ++ " " ++ String.ofList (Text.inert note.text.toList)

/-- The notes that matter at least as much as a level. -/
def notesUpTo (level : Level) (notes : List Note) : List Note :=
  notes.filter (·.level.rank ≤ level.rank)

/-- The notes of a computation, and how it came out. -/
structure Journaled (α : Type) where
  notes : List Note
  outcome : Except Failure α

namespace Journaled

variable {α β : Type}

/-- Ends well, without a note. -/
def done (a : α) : Journaled α :=
  ⟨[], .ok a⟩

/-- One step after the other; a failure of the first is the failure of both. -/
def andThen (first : Journaled α) (next : α → Journaled β) : Journaled β :=
  match first.outcome with
  | .ok a => ⟨first.notes ++ (next a).notes, (next a).outcome⟩
  | .error failure => ⟨first.notes, .error failure⟩

instance : Monad Journaled where
  pure := done
  bind := andThen

/-- Fails, without a note. -/
def fail (failure : Failure) : Journaled α :=
  ⟨[], .error failure⟩

/-- Goes on with a value that may turn out to be a failure. -/
def ofExcept (outcome : Except Failure α) : Journaled α :=
  ⟨[], outcome⟩

/-- Takes some notes of one level. -/
def note (level : Level) (texts : List String) : Journaled Unit :=
  ⟨texts.map (⟨level, ·⟩), .ok ()⟩

/-- The same for each item in order, up to the first failure. -/
def each (f : α → Journaled β) : List α → Journaled (List β)
  | [] => done []
  | a :: rest => do
    let b ← f a
    let others ← each f rest
    return b :: others

@[simp] theorem pure_eq_done (a : α) : (pure a : Journaled α) = done a := rfl

@[simp] theorem bind_eq_andThen (first : Journaled α) (next : α → Journaled β) :
    first >>= next = first.andThen next := rfl

/-- What follows a failure is not done. -/
theorem andThen_error (notes : List Note) (failure : Failure) (next : α → Journaled β) :
    andThen ⟨notes, .error failure⟩ next = ⟨notes, .error failure⟩ := rfl

theorem andThen_ok (notes : List Note) (a : α) (next : α → Journaled β) :
    andThen ⟨notes, .ok a⟩ next = ⟨notes ++ (next a).notes, (next a).outcome⟩ := rfl

/-- Two steps come out well if the first does, and then the second with what the first gives. -/
theorem outcome_andThen (first : Journaled α) (next : α → Journaled β) :
    (first.andThen next).outcome = first.outcome.bind fun a => (next a).outcome := by
  obtain ⟨notes, failure | a⟩ := first
  · rfl
  · rfl

instance : LawfulMonad Journaled := .mk' _
  (by
    intro α first
    obtain ⟨notes, failure | a⟩ := first
    · rfl
    · change andThen ⟨notes, .ok a⟩ (fun a => done (id a)) = ⟨notes, .ok a⟩
      simp [andThen_ok, done])
  (fun _ _ => by simp [done, andThen_ok])
  (by
    intro α β γ first next last
    obtain ⟨notes, failure | a⟩ := first
    · rfl
    · simp only [bind_eq_andThen, andThen_ok]
      generalize next a = second
      obtain ⟨more, failure | b⟩ := second <;> simp [andThen])

end Journaled

end RunTimings
