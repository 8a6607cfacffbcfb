import RomCatalog.Toml.Grammar

/-!
How far readers look. A reader passes over the start of a text and leaves the rest, and it would
read the same if the text ended anywhere in that rest: nothing that it leaves has a say.
-/

namespace RomCatalog.Toml

/-- Reading leaves `rest`, and the relation holds whatever part of `rest` still follows. -/
def Reaches (reads : List Char → List Char → Prop) (text rest : List Char) : Prop :=
  ∃ cut, text = cut ++ rest ∧ ∀ kept, kept <+: rest → reads (cut ++ kept) kept

namespace Reaches

variable {reads others first second : List Char → List Char → Prop}
  {text middle rest : List Char}

theorem imp (reach : Reaches reads text rest)
    (more : ∀ start left, start <+: text → reads start left → others start left) :
    Reaches others text rest := by
  obtain ⟨cut, rfl, ends⟩ := reach
  refine ⟨cut, rfl, ?_⟩
  intro kept before
  exact more _ _ ((List.prefix_append_right_inj cut).mpr before) (ends kept before)

theorem stay (ends : ∀ kept, kept <+: text → reads kept kept) : Reaches reads text text :=
  ⟨[], rfl, ends⟩

theorem cons {c : Char} (reach : Reaches (fun start left => reads (c :: start) left) text rest) :
    Reaches reads (c :: text) rest := by
  obtain ⟨cut, rfl, ends⟩ := reach
  exact ⟨c :: cut, rfl, ends⟩

theorem trans (reach : Reaches first text middle) (next : Reaches second middle rest) :
    Reaches
      (fun start left => ∃ between, between <+: middle ∧ between <:+ start ∧
        first start between ∧ second between left)
      text rest := by
  obtain ⟨cut, rfl, ends⟩ := reach
  obtain ⟨further, rfl, endsFurther⟩ := next
  refine ⟨cut ++ further, (List.append_assoc ..).symm, ?_⟩
  intro kept before
  have between : further ++ kept <+: further ++ rest :=
    (List.prefix_append_right_inj further).mpr before
  rw [List.append_assoc]
  exact ⟨further ++ kept, between, List.suffix_append .., ends _ between, endsFurther kept before⟩

theorem bind {α β : Type} {reader : List Char → Option α} {next : α → Option β}
    {found : List Char → α} {result : List Char → β}
    (reach : Reaches (fun start left => reader start = some (found left)) text middle)
    (further : Reaches (fun start left => next (found start) = some (result left)) middle rest) :
    Reaches (fun start left => (reader start >>= next) = some (result left)) text rest := by
  refine (reach.trans further).imp ?_
  rintro start left _ ⟨between, _, _, read, readNext⟩
  rw [read]
  exact readNext

theorem stop {c : Char} (nothing : reads [] [])
    (ends : ∀ kept, kept <+: rest → reads (c :: kept) (c :: kept)) :
    Reaches reads (c :: rest) (c :: rest) := by
  refine stay ?_
  intro kept before
  cases kept with
  | nil => exact nothing
  | cons d more =>
      obtain ⟨rfl, shorter⟩ := List.cons_prefix_cons.mp before
      exact ends more shorter

theorem span (p : Char → Bool) (text : List Char) :
    Reaches
      (fun start left => start.takeWhile p = text.takeWhile p ∧ start.dropWhile p = left)
      text (text.dropWhile p) := by
  induction text with
  | nil => exact stay (by simp)
  | cons c rest ih =>
      by_cases passed : p c = true
      · rw [List.takeWhile_cons_of_pos passed, List.dropWhile_cons_of_pos passed]
        refine cons (ih.imp ?_)
        rintro start left _ ⟨taken, dropped⟩
        rw [List.takeWhile_cons_of_pos passed, List.dropWhile_cons_of_pos passed, taken]
        exact ⟨rfl, dropped⟩
      · rw [List.takeWhile_cons_of_neg passed, List.dropWhile_cons_of_neg passed]
        exact stop ⟨rfl, rfl⟩ fun kept _ =>
          ⟨List.takeWhile_cons_of_neg passed, List.dropWhile_cons_of_neg passed⟩

theorem dropWhile (p : Char → Bool) (text : List Char) :
    Reaches (fun start left => start.dropWhile p = left) text (text.dropWhile p) :=
  (span p text).imp fun _ _ _ both => both.2

end Reaches

/-! Blanks, comments and single characters. -/

section Numbers

variable {isDigit : Char → Bool} {text rest digits : List Char} {negative : Bool} {value : Value}

end Numbers

/-! Dates and times. -/

section Dates

variable {text rest : List Char}

end Dates

end RomCatalog.Toml
