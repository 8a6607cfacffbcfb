import Mathlib.Data.List.Nodup
import RomCatalog.Proofs.SettingsLines
import RomCatalog.Settings.Load

/-!
Loading a settings file gives the settings that were chosen when it was written, whichever way of
writing was taken, and the defaults where nothing was chosen.
-/

namespace RomCatalog.SettingsText

open Spelling

/-- The entry gives the item, wherever it stands in the text. -/
def Holds (item : Item) (entry : Toml.Key × Toml.Node) : Prop :=
  entry.1.text = item.key ∧ ∃ span, entry.2 = .value item.value span

theorem assign_fresh {entries : Toml.Entries} (key : Toml.Key) (node : Toml.Node)
    (fresh : ∀ entry ∈ entries, entry.1.text ≠ key.text) :
    Toml.Entries.assign node [key] entries = some (entries ++ [(key, node)]) := by
  unfold Toml.Entries.assign
  induction entries with
  | nil => rfl
  | cons entry entries ih =>
      rw [List.forall_mem_cons] at fresh
      rw [Toml.Entries.update, if_neg fresh.1, ih fresh.2]
      rfl

theorem add_fresh {item : Item} {statement : Toml.Statement} {entries : Toml.Entries}
    (gives : Gives item statement) (fresh : ∀ entry ∈ entries, entry.1.text ≠ item.key) :
    ∃ entry, Holds item entry ∧
      Toml.Draft.add ⟨entries, []⟩ statement = some ⟨entries ++ [entry], []⟩ := by
  obtain ⟨keySpan, span, rfl⟩ := gives
  have assigned := assign_fresh ⟨item.key, keySpan⟩ (.value item.value span) fresh
  refine ⟨(⟨item.key, keySpan⟩, .value item.value span), ⟨rfl, span, rfl⟩, ?_⟩
  simp only [Toml.Draft.add, ↓reduceIte, assigned, Option.map_some]

theorem foldlM_add {items : List Item} {statements : List Toml.Statement}
    (gives : List.Forall₂ Gives items statements) (distinct : (items.map Item.key).Nodup) :
    ∀ entries : Toml.Entries, (∀ entry ∈ entries, entry.1.text ∉ items.map Item.key) →
      ∃ added, statements.foldlM Toml.Draft.add ⟨entries, []⟩ = some ⟨entries ++ added, []⟩ ∧
        List.Forall₂ Holds items added := by
  induction gives with
  | nil => exact fun entries _ => ⟨[], by simp, .nil⟩
  | @cons item statement items statements gives _ ih =>
      intro entries fresh
      simp only [List.map_cons, List.mem_cons, not_or] at fresh
      rw [List.map_cons, List.nodup_cons] at distinct
      obtain ⟨entry, holds, first⟩ := add_fresh gives fun other member => (fresh other member).1
      have stillFresh : ∀ other ∈ entries ++ [entry], other.1.text ∉ items.map Item.key := by
        intro other member
        rcases List.mem_append.mp member with old | new
        · exact (fresh other old).2
        · rw [List.mem_singleton.mp new, holds.1]
          exact distinct.1
      obtain ⟨added, others, holdsMore⟩ := ih distinct.2 (entries ++ [entry]) stillFresh
      refine ⟨entry :: added, ?_, .cons holds holdsMore⟩
      rw [List.foldlM_cons, first, Option.bind_eq_bind, Option.bind_some, others,
        List.append_assoc]
      rfl

/-! The order of the items is of no account, since each has its own setting. -/

theorem foldl_eq_of_perm {α β κ : Type} {key : α → κ} {step : β → α → β}
    (comm : ∀ a b, key a ≠ key b → ∀ state, step (step state a) b = step (step state b) a)
    {steps others : List α} (order : steps.Perm others) (distinct : (steps.map key).Nodup)
    (state : β) : steps.foldl step state = others.foldl step state := by
  refine order.foldl_eq' ?_ state
  intro a memberA b memberB state
  by_cases same : key a = key b
  · rw [List.inj_on_of_nodup_map distinct memberA memberB same]
  · exact comm a b same state

def Item.take (overrides : Overrides) : Item → Overrides
  | .root text => { overrides with root := some (Path.ofString text) }
  | .includeStart text => { overrides with includeStart := some text }
  | .bindingStart text => { overrides with bindingStart := some text }
  | .tableName text => { overrides with tableName := some text }
  | .sorted flag => { overrides with sorted := some flag }

theorem set_item (overrides : Overrides) (item : Item) :
    SettingsFile.set overrides item.key (Found.ofValue item.value) =
      .ok (item.take overrides) := by
  cases item <;> rfl

theorem setAll_holds {items : List Item} {entries : Toml.Entries}
    (holds : List.Forall₂ Holds items entries) (overrides : Overrides) :
    SettingsFile.setAll overrides entries = .ok (items.foldl Item.take overrides) := by
  induction holds generalizing overrides with
  | nil => rfl
  | cons holds _ ih =>
      obtain ⟨named, span, given⟩ := holds
      rw [SettingsFile.setAll, named, given, Found.ofNode, set_item]
      exact ih _

theorem take_comm {a b : Item} (different : a.key ≠ b.key) (overrides : Overrides) :
    b.take (a.take overrides) = a.take (b.take overrides) := by
  cases a <;> cases b <;> first | rfl | exact absurd rfl different

namespace Choice

theorem keys_sublist (choice : Choice) : (choice.items.map Item.key).Sublist Item.keys := by
  have one {α : Type} (given : Option α) (item : α → Item) (name : String)
      (named : ∀ value, (item value).key = name) :
      ((given.toList.map item).map Item.key).Sublist [name] := by
    cases given with
    | none => simp
    | some value => simp [named]
  simp only [items, List.map_append]
  exact (one _ _ "root" fun _ => rfl).append
    ((one _ _ "include_prefix" fun _ => rfl).append
      ((one _ _ "binding_prefix" fun _ => rfl).append
        ((one _ _ "table_name" fun _ => rfl).append (one _ _ "sort" fun _ => rfl))))

theorem nodup_keys (choice : Choice) : (choice.items.map Item.key).Nodup :=
  choice.keys_sublist.nodup (by decide)

theorem foldl_take_perm {choice : Choice} {items : List Item} (order : items.Perm choice.items)
    (overrides : Overrides) :
    items.foldl Item.take overrides = choice.items.foldl Item.take overrides := by
  have distinct : (items.map Item.key).Nodup := (order.map Item.key).nodup_iff.mpr choice.nodup_keys
  exact foldl_eq_of_perm (fun a b => take_comm) order distinct overrides

def overrides (choice : Choice) : Overrides where
  root := choice.root.map Path.ofString
  includeStart := choice.includeStart
  bindingStart := choice.bindingStart
  tableName := choice.tableName
  sorted := choice.sorted

theorem foldl_take (choice : Choice) :
    choice.items.foldl Item.take Overrides.empty = choice.overrides := by
  obtain ⟨root, includeStart, bindingStart, tableName, sorted⟩ := choice
  cases root <;> cases includeStart <;> cases bindingStart <;> cases tableName <;> cases sorted <;>
    rfl

end Choice

theorem document?_written {choice : Choice} {text : String} (written : choice.Written text) :
    ∃ items entries, items.Perm choice.items ∧
      Toml.document? text.toList = some entries ∧ List.Forall₂ Holds items entries := by
  obtain ⟨items, statements, order, read, gives⟩ := statements?_written written
  have distinct : (items.map Item.key).Nodup :=
    (order.map Item.key).nodup_iff.mpr choice.nodup_keys
  obtain ⟨entries, added, holds⟩ := foldlM_add gives distinct [] (by simp)
  refine ⟨items, entries, order, ?_, holds⟩
  rw [Toml.document?, read, Option.bind_eq_bind, Option.bind_some, added]
  rfl

theorem read_written {choice : Choice} {text : String} (written : choice.Written text) :
    SettingsFile.read text = .ok choice.overrides := by
  obtain ⟨items, entries, order, read, holds⟩ := document?_written written
  have all : SettingsFile.setAll Overrides.empty entries = .ok choice.overrides := by
    rw [setAll_holds holds, Choice.foldl_take_perm order, choice.foldl_take]
  simp only [SettingsFile.read, read, all]

theorem exists_written (choice : Choice) {items : List Item} (order : items.Perm choice.items) :
    ∃ text : String, Lines items text.toList ∧ choice.Written text := by
  obtain ⟨text, lines⟩ := exists_lines items
  rw [← String.toList_ofList (l := text)] at lines
  exact ⟨String.ofList text, lines, .unmarked order lines⟩

/-- Whatever is chosen can be written down in any order, and however it is written, loading the
file gives it back. -/
theorem load_of_written (choice : Choice) :
    (∀ items, items.Perm choice.items →
      ∃ text : String, Lines items text.toList ∧ choice.Written text) ∧
    ∀ text, choice.Written text → ∀ (fs : FileSystem) (path : Path),
      fs.read path = .ok (Utf8.encode text) →
        Settings.load fs path = .ok
          { Settings.default with
            base := path.parent?.getD Path.empty
            root := (choice.root.map Path.ofString).getD Settings.default.root
            embedding := (choice.includeStart.map .after).getD Settings.default.embedding
            bindingStart := choice.bindingStart.getD Settings.default.bindingStart
            tableName := choice.tableName.getD Settings.default.tableName
            sorted := choice.sorted.getD Settings.default.sorted } := by
  refine ⟨fun items order => exists_written choice order, ?_⟩
  intro text written fs path contents
  have readText : fs.readText path = .ok text := by
    simp only [FileSystem.readText, contents, Utf8.decode?_encode]
  simp only [Settings.load, readText, Settings.ofText, read_written written]
  rfl

def cartsText : String :=
  "\uFEFF# carts\r\n\n table_name\t= 'C:\\new' # as it is\r\nsort=false\n" ++
    "root = \"\\\"\\\\\\u001B\\U0001f579 \""

def carts : Choice where
  root := some "\"\\\u001b🕹 "
  includeStart := none
  bindingStart := none
  tableName := some "C:\\new"
  sorted := some false

def cartsShelf : FileSystem where
  objects := [([Utf8.encode "roms.toml"], .file (Utf8.encode cartsText))]
  current := .inTree []
  unique := by decide +kernel

theorem carts_written : carts.Written cartsText := by
  have named : Entry (.tableName "C:\\new") ([' '] ++ ("table_name".toList ++ (['\t'] ++ '=' ::
      ([' '] ++ (('\'' :: ("C:\\new".toList ++ ['\''])) ++ ([' '] ++ '#' :: " as it is".toList)))))) :=
    .mk (by decide) (by decide) (by decide) (.string (.literal (by decide) (by decide)))
      (.comment (by decide) (by decide))
  have unsorted : Entry (.sorted false) ([] ++ ("sort".toList ++ ([] ++ '=' ::
      ([] ++ (['f', 'a', 'l', 's', 'e'] ++ []))))) :=
    .mk (by decide) (by decide) (by decide) .no (.blanks (by decide))
  have short : Spells '\x1b' ('\\' :: 'u' :: hexNumber [true, true, true, true] 0x1b) :=
    .short rfl (by decide)
  have long : Spells '🕹' ('\\' :: 'U' :: hexNumber (List.replicate 8 false) 0x1f579) := .long rfl
  have spells : SpellsAll ['"', '\\', '\x1b', '🕹', ' '] _ :=
    .cons (.letter (by decide : ('"', '"') ∈ shortEscapes))
      (.cons (.letter (by decide : ('\\', '\\') ∈ shortEscapes))
        (.cons short (.cons long (.cons (.plain (by decide) (by decide) (by decide)) .nil))))
  have characters : "\"\\\u001b🕹 ".toList = ['"', '\\', '\x1b', '🕹', ' '] := by decide
  rw [← characters] at spells
  have rooted : Entry (.root "\"\\\u001b🕹 ") ([] ++ ("root".toList ++ ([' '] ++ '=' ::
      ([' '] ++ (('"' :: (_ ++ ['"'])) ++ []))))) :=
    .mk (by decide) (by decide) (by decide) (.string (.basic spells)) (.blanks (by decide))
  have commented : Passed ([] ++ '#' :: " carts".toList) := .comment (by decide) (by decide)
  have lines := Lines.passed commented .long (.passed (.blanks (by decide : AllBlank [])) .short
    (.entry named .long (.entry unsorted .short (.lastEntry rooted))))
  exact .marked (by decide) lines (by decide +kernel)

theorem load_of_written_carts :
    carts.items.reverse.Perm carts.items ∧ carts.Written cartsText ∧
      cartsShelf.read (Path.ofString "roms.toml") = .ok (Utf8.encode cartsText) ∧
      (∃ text : String, Lines carts.items.reverse text.toList ∧ carts.Written text) ∧
      Settings.load cartsShelf (Path.ofString "roms.toml") = .ok
        { Settings.default with
          root := Path.ofString "\"\\\u001b🕹 "
          tableName := "C:\\new"
          sorted := false } := by
  have order : carts.items.reverse.Perm carts.items := List.reverse_perm _
  have contents : cartsShelf.read (Path.ofString "roms.toml") = .ok (Utf8.encode cartsText) := rfl
  obtain ⟨writable, loads⟩ := load_of_written carts
  refine ⟨order, carts_written, contents, writable _ order, ?_⟩
  have loaded := loads cartsText carts_written cartsShelf _ contents
  have here : (Path.ofString "roms.toml").parent?.getD Path.empty = Path.empty := by decide
  rw [here] at loaded
  exact loaded

end RomCatalog.SettingsText
