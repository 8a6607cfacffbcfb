/-!
What a step of a program comes to. Besides giving a value or failing, it may go on for ever, as
when it reads from a pipe into which nobody writes.
-/

namespace RomCatalog

inductive Outcome (ε α : Type) where
  | ok (value : α)
  | error (reason : ε)
  | endless
deriving DecidableEq, Repr

namespace Outcome

variable {ε α : Type}

def ofExcept : Except ε α → Outcome ε α
  | .ok value => .ok value
  | .error reason => .error reason

def toOption : Outcome ε α → Option α
  | .ok value => some value
  | _ => none

@[simp] theorem ofExcept_eq_ok_iff {result : Except ε α} {value : α} :
    ofExcept result = .ok value ↔ result = .ok value := by
  cases result <;> simp [ofExcept]

@[simp] theorem ofExcept_eq_error_iff {result : Except ε α} {reason : ε} :
    ofExcept result = .error reason ↔ result = .error reason := by
  cases result <;> simp [ofExcept]

@[simp] theorem ofExcept_ne_endless (result : Except ε α) : ofExcept result ≠ .endless := by
  cases result <;> simp [ofExcept]

end Outcome

end RomCatalog
