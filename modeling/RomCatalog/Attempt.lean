import RomCatalog.Failure
import RomCatalog.Outcome

/-!
An attempt is what a computation leaves behind: the records it made, and its result or the failure
that ended it, if it ends. Records made before a failure are kept.
-/

namespace RomCatalog

structure Attempt (α : Type) where
  journal : List Record
  outcome : Outcome Failure α

namespace Attempt

def done {α : Type} (value : α) : Attempt α := ⟨[], .ok value⟩

def failed {α : Type} (failure : Failure) : Attempt α := ⟨[], .error failure⟩

def ofOutcome {α : Type} (outcome : Outcome Failure α) : Attempt α := ⟨[], outcome⟩

def note (level : Level) (text : String) : Attempt Unit := ⟨[⟨level, text⟩], .ok ()⟩

def andThen {α β : Type} (attempt : Attempt α) (next : α → Attempt β) : Attempt β :=
  match attempt.outcome with
  | .ok value => ⟨attempt.journal ++ (next value).journal, (next value).outcome⟩
  | .error failure => ⟨attempt.journal, .error failure⟩
  | .endless => ⟨attempt.journal, .endless⟩

instance : Monad Attempt where
  pure := done
  bind := andThen

end Attempt

end RomCatalog
