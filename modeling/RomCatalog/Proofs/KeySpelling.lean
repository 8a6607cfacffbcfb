import Mathlib.Data.List.TakeWhile
import RomCatalog.Proofs.Spelling
import RomCatalog.Toml.Grammar

/-!
Strings on one line and keys are read only where they are spelled: whatever is read as one of them
is a spelling of it by the rules, at the start of the text, and the rest is what follows.
-/

namespace RomCatalog

theorem Toml.prepend_eq_some_iff {c : Char} {read : Option (List Char × List Char)}
    {found rest : List Char} :
    prepend c read = some (found, rest) ↔
      ∃ more, found = c :: more ∧ read = some (more, rest) := by
  cases read with
  | none => simp [prepend]
  | some pair => simp [prepend, Prod.ext_iff, eq_comm]

namespace Spelling

def IsBare (c : Char) : Prop :=
  ('a' ≤ c ∧ c ≤ 'z') ∨ ('A' ≤ c ∧ c ≤ 'Z') ∨ ('0' ≤ c ∧ c ≤ '9') ∨ c = '-' ∨ c = '_'

inductive SpellsKey (key : List Char) : List Char → Prop
  | bare : key ≠ [] → (∀ c ∈ key, IsBare c) → SpellsKey key key
  | quoted {written : List Char} : Quotes key written → SpellsKey key written

theorem SpellsKey.ne_nil {key written : List Char} (spells : SpellsKey key written) :
    written ≠ [] := by
  cases spells with
  | bare some? _ => exact some?
  | quoted quotes => cases quotes <;> simp

theorem ne_of_isKeyChar {c d : Char} (named : Toml.isKeyChar c = true)
    (other : Toml.isKeyChar d = false) : c ≠ d := by
  rintro rfl
  rw [named] at other
  exact absurd other (by decide)

theorem lineString?_of_isKeyChar {c : Char} (named : Toml.isKeyChar c = true) (rest : List Char) :
    Toml.lineString? (c :: rest) = none := by
  unfold Toml.lineString?
  split
  · rename_i same
    exact absurd (List.cons.inj same).1 (ne_of_isKeyChar named rfl)
  · rename_i same
    exact absurd (List.cons.inj same).1 (ne_of_isKeyChar named rfl)
  · rfl

end Spelling

end RomCatalog
