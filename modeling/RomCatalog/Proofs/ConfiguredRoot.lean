import RomCatalog.Proofs.EmbeddedFile
import RomCatalog.Proofs.LastChange
import RomCatalog.Proofs.ParentPath

/-!
Where the scanned directory is when a settings file says so. A root that the file gives is found
from the directory that holds the file, however the path to the file is spelled.
-/

namespace RomCatalog

namespace Path

theorem components_of_isPlainName {name : Name} (plain : IsPlainName name) :
    components ⟨name⟩ = [.name name] := by
  obtain ⟨whole, named⟩ := plain
  have unled : leadComponent ⟨name⟩ = [] := by
    cases name with
    | nil => rfl
    | cons first rest =>
        rw [List.mem_cons, not_or] at whole
        rw [leadComponent_cons, if_neg (Ne.symm whole.1), if_neg]
        rintro ⟨rfl, rfl | starts⟩
        · simp [component?] at named
        · exact whole.2 (List.mem_of_mem_head? starts)
  rw [components_eq, unled, through_name whole, named]
  rfl

theorem components_join_plain {name : Name} (plain : IsPlainName name) (directory : Path) :
    (directory.join ⟨name⟩).components = directory.components ++ [.name name] := by
  rw [components_join (isAbsolute_of_isPlainName plain), route_of_isPlainName plain,
    components_of_isPlainName plain]
  split
  · rename_i none
    rw [none]
    rfl
  · rfl

theorem components_parent_join {name : Name} (plain : IsPlainName name) (directory other : Path) :
    (((directory.join ⟨name⟩).parent?.getD empty).join other).components =
      (directory.join other).components := by
  cases absolute : other.isAbsolute with
  | true => rw [join_of_isAbsolute absolute, join_of_isAbsolute absolute]
  | false =>
      rw [components_join absolute, components_join absolute, components_parent,
        components_join_plain plain, List.dropLast_concat]

end Path

namespace Settings

open SettingsText

section

variable {fs : FileSystem} {path : Path} {text : String} {settings : Settings}
  {entries : Toml.Entries} {items : List Item} (contents : fs.readText path = .ok text)
  (loaded : load fs path = .ok settings) (valid : Toml.document? text.toList = some entries)
  (holds : List.Forall₂ Holds items entries)

include contents loaded valid holds

theorem held?_load_of_mem {item : Item} (given : item ∈ items) :
    settings.held? item.change.kind = some item.change := by
  have order : ((items.erase item).map Item.change ++ [item.change]).Perm
      (items.map Item.change) := by
    refine (List.perm_append_singleton _ _).trans ?_
    exact ((List.perm_cons_erase given).map Item.change).symm
  rw [held?_load contents loaded valid holds order, Change.last?_concat, Option.some_or]

theorem root_of_given {root : String} (given : .root root ∈ items) :
    settings.root = Path.ofString root := by
  have held := held?_load_of_mem contents loaded valid holds given
  simpa [Item.change, Change.kind, held?] using held

theorem root_of_not_given (notGiven : ∀ root, .root root ∉ items) :
    settings.root = default.root := by
  have unchanged : ∀ change ∈ items.map Item.change, change.kind ≠ .root := by
    intro change member same
    obtain ⟨item, given, rfl⟩ := List.mem_map.mp member
    cases item with
    | root root => exact notGiven root given
    | includeStart _ | bindingStart _ | tableName _ | sorted _ => exact nomatch same
  have held := held?_load contents loaded valid holds (List.Perm.refl _) .root
  rw [(Change.last?_eq_none_iff _ _).mpr unchanged, Option.none_or] at held
  simpa [held?] using held

end

/-- A root in a settings file is relative to the directory that holds the file, and an absolute one
is the scanned directory itself. -/
theorem romDirectory_beside_file :
    ∀ fs (directory : Path) name settings, Path.IsPlainName name →
      load fs (directory.join ⟨name⟩) = .ok settings →
      ∃ text entries items, fs.readText (directory.join ⟨name⟩) = .ok text ∧
        Toml.document? text.toList = some entries ∧ List.Forall₂ Holds items entries ∧
        (∀ root, .root root ∈ items → settings.root = Path.ofString root) ∧
        ((∀ root, .root root ∉ items) → settings.root = default.root) ∧
        settings.romDirectory.components = (directory.join settings.root).components ∧
        (settings.root.isAbsolute = true → settings.romDirectory = settings.root) := by
  intro fs directory name settings plain loaded
  obtain ⟨text, overrides, contents, _, taken⟩ := overrides_of_load loaded
  obtain ⟨entries, valid⟩ := document_of_load contents loaded
  obtain ⟨items, holds⟩ := SettingsFile.exists_items (fits_of_load contents valid loaded)
  have base : settings.base = (directory.join ⟨name⟩).parent?.getD Path.empty := by
    rw [taken]
    rfl
  refine ⟨text, entries, items, contents, valid, holds, ?_, ?_, ?_, ?_⟩
  · intro root given
    exact root_of_given contents loaded valid holds given
  · intro notGiven
    exact root_of_not_given contents loaded valid holds notGiven
  · rw [romDirectory, base]
    exact Path.components_parent_join plain directory settings.root
  · intro absolute
    exact Path.join_of_isAbsolute absolute settings.base

def cartsBesideText : String :=
  "root = './carts/'"

def cartsBesideShelf : FileSystem where
  objects := [([Utf8.encode "roms.toml", Utf8.encode "shop"], .file (Utf8.encode cartsBesideText)),
    ([Utf8.encode "shop"], .directory)]
  current := .inTree []
  unique := by decide +kernel

theorem romDirectory_beside_file_dotted :
    let directory := Path.ofString "./shop//."
    let name := Utf8.encode "roms.toml"
    let root := Path.ofString "./carts/"
    let settings := { default with base := Path.ofString "./shop", root := root }
    Path.IsPlainName name ∧ load cartsBesideShelf (directory.join ⟨name⟩) = .ok settings ∧
      settings.romDirectory = Path.ofString "./shop/./carts/" ∧
      directory.join root = Path.ofString "./shop//././carts/" ∧
      settings.romDirectory.components = (directory.join root).components := by
  intro directory name root settings
  have plain : Path.IsPlainName name := by decide
  have loaded : load cartsBesideShelf (directory.join ⟨name⟩) = .ok settings := rfl
  obtain ⟨_, _, _, _, _, _, _, _, same, _⟩ :=
    romDirectory_beside_file cartsBesideShelf directory name settings plain loaded
  exact ⟨plain, loaded, by decide, by decide, same⟩

end Settings

end RomCatalog
