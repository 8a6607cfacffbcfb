import RomCatalog.Proofs.Spelling
import RomCatalog.Toml.Value

/-!
Settings files as they may be written: a line for each chosen setting, in any order, among blank
lines and comments, with line ends of either kind. The rules know nothing of how a file is read.
-/

namespace RomCatalog.SettingsText

open Spelling

inductive Item where
  | root (text : String)
  | includeStart (text : String)
  | bindingStart (text : String)
  | tableName (text : String)
  | sorted (flag : Bool)
deriving DecidableEq, Repr

namespace Item

def key : Item → String
  | .root _ => "root"
  | .includeStart _ => "include_prefix"
  | .bindingStart _ => "binding_prefix"
  | .tableName _ => "table_name"
  | .sorted _ => "sort"

def keys : List String := ["root", "include_prefix", "binding_prefix", "table_name", "sort"]

theorem key_mem (item : Item) : item.key ∈ keys := by
  cases item <;> simp [key, keys]

def value : Item → Toml.Value
  | .root text => .string text
  | .includeStart text => .string text
  | .bindingStart text => .string text
  | .tableName text => .string text
  | .sorted flag => .boolean flag

end Item

inductive Denotes : Toml.Value → List Char → Prop
  | string {text : String} {quoted : List Char} : Quotes text.toList quoted →
      Denotes (.string text) quoted
  | yes : Denotes (.boolean true) ['t', 'r', 'u', 'e']
  | no : Denotes (.boolean false) ['f', 'a', 'l', 's', 'e']

def AllBlank (text : List Char) : Prop :=
  ∀ c ∈ text, c = ' ' ∨ c = '\t'

instance (text : List Char) : Decidable (AllBlank text) :=
  List.decidableBAll (fun c => c = ' ' ∨ c = '\t') text

/-- What may stand on a line of its own or behind a value: blanks and perhaps a comment. -/
inductive Passed : List Char → Prop
  | blanks {blanks : List Char} : AllBlank blanks → Passed blanks
  | comment {blanks comment : List Char} : AllBlank blanks → AllPlain comment →
      Passed (blanks ++ '#' :: comment)

inductive Entry (item : Item) : List Char → Prop
  | mk {indent before after value tail : List Char} : AllBlank indent → AllBlank before →
      AllBlank after → Denotes item.value value → Passed tail →
      Entry item (indent ++ (item.key.toList ++ (before ++ '=' :: (after ++ (value ++ tail)))))

inductive LineEnd : List Char → Prop
  | short : LineEnd ['\n']
  | long : LineEnd ['\r', '\n']

/-- The lines of a file with these items. The last line need not be ended. -/
inductive Lines : List Item → List Char → Prop
  | lastPassed {line : List Char} : Passed line → Lines [] line
  | lastEntry {item : Item} {line : List Char} : Entry item line → Lines [item] line
  | passed {items : List Item} {line ending rest : List Char} : Passed line → LineEnd ending →
      Lines items rest → Lines items (line ++ (ending ++ rest))
  | entry {item : Item} {items : List Item} {line ending rest : List Char} : Entry item line →
      LineEnd ending → Lines items rest → Lines (item :: items) (line ++ (ending ++ rest))

theorem exists_denotes (item : Item) : ∃ value, Denotes item.value value := by
  have text : ∀ text : String, ∃ value, Denotes (.string text) value := by
    intro text
    obtain ⟨written, spells⟩ := exists_spellsAll text.toList
    exact ⟨_, .string (.basic spells)⟩
  cases item with
  | sorted flag =>
      cases flag with
      | true => exact ⟨_, .yes⟩
      | false => exact ⟨_, .no⟩
  | root given => exact text given
  | includeStart given => exact text given
  | bindingStart given => exact text given
  | tableName given => exact text given

theorem exists_lines (items : List Item) : ∃ text, Lines items text := by
  have none : AllBlank [] := by simp [AllBlank]
  induction items with
  | nil => exact ⟨[], .lastPassed (.blanks none)⟩
  | cons item items ih =>
      obtain ⟨value, denotes⟩ := exists_denotes item
      obtain ⟨rest, lines⟩ := ih
      exact ⟨_, .entry (.mk none none none denotes (.blanks none)) .short lines⟩

structure Choice where
  root : Option String
  includeStart : Option String
  bindingStart : Option String
  tableName : Option String
  sorted : Option Bool
deriving DecidableEq, Repr

namespace Choice

def items (choice : Choice) : List Item :=
  choice.root.toList.map .root ++ (choice.includeStart.toList.map .includeStart ++
    (choice.bindingStart.toList.map .bindingStart ++
      (choice.tableName.toList.map .tableName ++ choice.sorted.toList.map .sorted)))

/-- The text gives what was chosen, in some order, perhaps behind a byte order mark. -/
inductive Written (choice : Choice) (text : String) : Prop
  | unmarked {items : List Item} : items.Perm choice.items → Lines items text.toList →
      Written choice text
  | marked {items : List Item} {lines : List Char} : items.Perm choice.items →
      Lines items lines → text.toList = '\uFEFF' :: lines → Written choice text

end Choice

end RomCatalog.SettingsText
