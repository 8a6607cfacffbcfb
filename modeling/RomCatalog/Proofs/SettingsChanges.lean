import RomCatalog.Proofs.PathComponents
import RomCatalog.Proofs.SettingsMisfit

/-!
A settings file says no more than a series of changes does. The settings that it gives look like the
defaults after one change for each of its keys, in whatever order, and go on doing so under further
changes. Only the scanned directory depends on where the file is.
-/

namespace RomCatalog

namespace Path

theorem lead_of_notMem {path : Path} (whole : separator ∉ path.bytes) :
    path.lead.2 = [] ∨ path.lead = ([], path.bytes) := by
  unfold lead
  split
  · exact .inl rfl
  · rename_i first rest written
    rw [written, List.mem_cons, not_or] at whole
    rw [if_neg (Ne.symm whole.1)]
    split
    · rename_i stays
      refine .inl (stays.2.resolve_right ?_)
      intro starts
      exact whole.2 (List.mem_of_mem_head? starts)
    · rw [written]
      exact .inr rfl

theorem parent?_of_notMem {path : Path} (whole : separator ∉ path.bytes) :
    path.parent?.getD empty = empty := by
  rcases lead_of_notMem whole with nothing | unled
  · simp only [parent?, nothing]
    change (if _ then none else some empty).getD empty = empty
    split <;> rfl
  · simp only [parent?, unled, Text.pieces_of_notMem separator whole]
    cases named : component? path.bytes with
    | none =>
        have trimmed : trimPieces [path.bytes] = [] := by simp [trimPieces, named]
        simp [trimmed]
    | some component =>
        have kept : trimPieces [path.bytes] = [path.bytes] := by simp [trimPieces, named]
        rw [kept]
        rfl

theorem empty_join (path : Path) : empty.join path = path := by
  unfold join
  split
  · rfl
  · rfl

end Path

inductive Change.Kind where
  | root
  | includeStart
  | bindingStart
  | tableName
  | sorted
  | placement
  | output
deriving DecidableEq, Repr

def Change.kind : Change → Change.Kind
  | .root _ => .root
  | .includeStart _ => .includeStart
  | .bindingStart _ => .bindingStart
  | .tableName _ => .tableName
  | .sorted _ => .sorted
  | .placement _ => .placement
  | .output _ _ => .output

namespace SettingsText

def Item.change : Item → Change
  | .root text => .root (Path.ofString text)
  | .includeStart text => .includeStart text
  | .bindingStart text => .bindingStart text
  | .tableName text => .tableName text
  | .sorted flag => .sorted flag

theorem Item.key_eq_of_kind_eq {a b : Item} (same : a.change.kind = b.change.kind) :
    a.key = b.key := by
  cases a <;> cases b <;> first | rfl | simp [change, Change.kind] at same

theorem Item.apply_take (item : Item) (overrides : Overrides) (settings : Settings) :
    (item.take overrides).apply settings = (overrides.apply settings).change item.change := by
  cases item <;> rfl

theorem apply_foldl_take (items : List Item) (overrides : Overrides) (settings : Settings) :
    (items.foldl Item.take overrides).apply settings =
      (overrides.apply settings).changeAll (items.map Item.change) := by
  induction items generalizing overrides with
  | nil => rfl
  | cons item rest ih =>
      rw [List.foldl_cons, ih, item.apply_take]
      rfl

theorem keys_of_holds {items : List Item} {entries : Toml.Entries}
    (holds : List.Forall₂ Holds items entries) : items.map Item.key = entries.keys := by
  induction holds with
  | nil => rfl
  | cons holds _ ih => rw [List.map_cons, ih, ← holds.1]; rfl

end SettingsText

namespace Settings

open SettingsText SettingsFile

theorem change_comm {a b : Change} (different : a.kind ≠ b.kind) (settings : Settings) :
    (settings.change a).change b = (settings.change b).change a := by
  cases a <;> cases b <;> first | rfl | exact absurd rfl different

theorem changeAll_append (settings : Settings) (changes more : List Change) :
    settings.changeAll (changes ++ more) = (settings.changeAll changes).changeAll more :=
  List.foldl_append

theorem changeAll_withBase (settings : Settings) (base : Path) (changes : List Change) :
    changeAll { settings with base := base } changes =
      { settings.changeAll changes with base := base } := by
  induction changes generalizing settings with
  | nil => rfl
  | cons change rest ih =>
      have first : Settings.change { settings with base := base } change =
          { settings.change change with base := base } := by
        cases change <;> rfl
      rw [changeAll, List.foldl_cons, first]
      exact ih (settings.change change)

theorem base_changeAll (settings : Settings) (changes : List Change) :
    (settings.changeAll changes).base = settings.base := by
  have unmoved := congrArg Settings.base (changeAll_withBase settings settings.base changes)
  exact unmoved

theorem embedding_changeAll (settings : Settings) (changes : List Change) :
    (settings.changeAll changes).embedding = settings.embedding ∨
      ∃ start, (settings.changeAll changes).embedding = .after start := by
  induction changes generalizing settings with
  | nil => exact .inl rfl
  | cons change rest ih =>
      rcases ih (settings.change change) with kept | given
      · cases change with
        | includeStart start => exact .inr ⟨start, kept⟩
        | root _ | bindingStart _ | tableName _ | sorted _ | placement _ | output _ _ =>
            exact .inl kept
      · exact .inr given

/-- The settings look the same, but for the scanned directory. -/
structure Alike (settings other : Settings) : Prop where
  sorted : settings.sorted = other.sorted
  placement : settings.placement = other.placement
  tableName : settings.tableName = other.tableName
  binding : ∀ rom, settings.binding rom = other.binding rom
  embedPath : ∀ rom, settings.embedPath rom = other.embedPath rom
  destination : settings.destination = other.destination

theorem alike_withBase {settings : Settings} (relative : settings.embedding ≠ .absolute)
    (base : Path) : Alike { settings with base := base } settings where
  sorted := rfl
  placement := rfl
  tableName := rfl
  binding := fun _ => rfl
  destination := rfl
  embedPath := by
    intro rom
    unfold embedPath
    dsimp only
    cases embedded : settings.embedding with
    | absolute => exact absurd embedded relative
    | beside | after _ => rfl

theorem document_of_load {fs : FileSystem} {path : Path} {text : String} {settings : Settings}
    (contents : fs.readText path = .ok text) (loaded : load fs path = .ok settings) :
    ∃ entries, Toml.document? text.toList = some entries := by
  rw [load_of_readText contents, ofText, SettingsFile.read] at loaded
  cases valid : Toml.document? text.toList with
  | none => simp [valid] at loaded
  | some entries => exact ⟨entries, rfl⟩

theorem load_eq_changeAll {fs : FileSystem} {path : Path} {text : String}
    {entries : Toml.Entries} (contents : fs.readText path = .ok text)
    (valid : Toml.document? text.toList = some entries) {items : List Item}
    (holds : List.Forall₂ Holds items entries) {changes : List Change}
    (order : changes.Perm (items.map Item.change)) :
    load fs path = .ok
      { default.changeAll changes with base := path.parent?.getD Path.empty } := by
  have distinct : (changes.map Change.kind).Nodup := by
    have keys : (items.map Item.key).Nodup := by
      rw [keys_of_holds holds]
      exact Toml.nodup_keys_document valid
    rw [(order.map Change.kind).nodup_iff, List.map_map, List.Nodup, List.pairwise_map]
    refine (List.pairwise_map.mp keys).imp ?_
    intro a b different same
    exact different (Item.key_eq_of_kind_eq same)
  have ordered : default.changeAll changes = default.changeAll (items.map Item.change) :=
    foldl_eq_of_perm (fun a b => change_comm) order distinct default
  rw [load_of_holds contents valid holds, apply_foldl_take, ordered]
  exact congrArg Outcome.ok (changeAll_withBase default (path.parent?.getD Path.empty) _)

/-- A file that is accepted gives settings that look like the defaults after the changes that its
keys stand for, in any order, and whatever is changed after that. The scanned directory is the same
below the directory that holds the file. -/
theorem load_as_changes :
    ∀ fs path text settings, FileSystem.readText fs path = .ok text →
      load fs path = .ok settings →
      ∃ entries, Toml.document? text.toList = some entries ∧
        (∃ items, List.Forall₂ Holds items entries) ∧
        ∀ items changes more, List.Forall₂ Holds items entries →
          changes.Perm (items.map Item.change) →
          let loaded := settings.changeAll more
          let changed := default.changeAll (changes ++ more)
          Alike loaded changed ∧
            loaded.romDirectory = (path.parent?.getD Path.empty).join changed.romDirectory ∧
            (Path.separator ∉ path.bytes → loaded.romDirectory = changed.romDirectory) := by
  intro fs path text settings contents loaded
  obtain ⟨entries, valid⟩ := document_of_load contents loaded
  refine ⟨entries, valid, exists_items (fits_of_load contents valid loaded), ?_⟩
  intro items changes more holds order after changed
  have placed : after = { changed with base := path.parent?.getD Path.empty } := by
    rw [load_eq_changeAll contents valid holds order, Outcome.ok.injEq] at loaded
    rw [show after = settings.changeAll more from rfl, ← loaded, changeAll_withBase,
      ← changeAll_append]
  have here : changed.base = Path.empty := base_changeAll default (changes ++ more)
  have relative : changed.embedding ≠ .absolute := by
    intro absolute
    rcases embedding_changeAll default (changes ++ more) with kept | ⟨start, given⟩
    · exact nomatch absolute.symm.trans kept
    · exact nomatch absolute.symm.trans given
  have below : after.romDirectory =
      (path.parent?.getD Path.empty).join changed.romDirectory := by
    rw [placed, romDirectory, romDirectory, here, Path.empty_join]
  refine ⟨?_, below, ?_⟩
  · rw [placed]
    exact alike_withBase relative _
  · intro whole
    rw [below, Path.parent?_of_notMem whole, Path.empty_join]

def prefixedText : String :=
  "sort = false\n\"ro\\u006Ft\" = 'carts/'\ninclude_prefix = \"../\""

def prefixedEntries : Toml.Entries :=
  [(⟨"sort", ⟨58, 54⟩⟩, .value (.boolean false) ⟨51, 46⟩),
    (⟨"root", ⟨45, 34⟩⟩, .value (.string "carts/") ⟨31, 23⟩),
    (⟨"include_prefix", ⟨22, 8⟩⟩, .value (.string "../") ⟨5, 0⟩)]

def prefixedShelf : FileSystem where
  objects := [([Utf8.encode "roms.toml"], .file (Utf8.encode prefixedText))]
  current := .inTree []
  unique := by decide +kernel

theorem load_as_changes_prefixed :
    let path := Path.ofString "roms.toml"
    let carts := Path.ofString "carts/"
    let settings := { default with root := carts, embedding := .after "../", sorted := false }
    let items : List Item := [.sorted false, .root "carts/", .includeStart "../"]
    let changes : List Change := [.includeStart "../", .root carts, .sorted false]
    let more : List Change := [.root (Path.ofString "tapes"), .placement .atModule]
    let changed := default.changeAll (changes ++ more)
    prefixedShelf.readText path = .ok prefixedText ∧ load prefixedShelf path = .ok settings ∧
      Toml.document? prefixedText.toList = some prefixedEntries ∧
      List.Forall₂ Holds items prefixedEntries ∧ changes.Perm (items.map Item.change) ∧
      Path.separator ∉ path.bytes ∧ Alike (settings.changeAll more) changed ∧
      (settings.changeAll more).romDirectory = changed.romDirectory := by
  intro path carts settings items changes more changed
  have contents : prefixedShelf.readText path = .ok prefixedText := rfl
  have loaded : load prefixedShelf path = .ok settings := rfl
  have valid : Toml.document? prefixedText.toList = some prefixedEntries := rfl
  have holds : List.Forall₂ Holds items prefixedEntries :=
    .cons ⟨rfl, _, rfl⟩ (.cons ⟨rfl, _, rfl⟩ (.cons ⟨rfl, _, rfl⟩ .nil))
  have order : changes.Perm (items.map Item.change) := by decide
  have whole : Path.separator ∉ path.bytes := by decide
  obtain ⟨entries, read, _, asChanges⟩ :=
    load_as_changes prefixedShelf path prefixedText settings contents loaded
  obtain rfl : prefixedEntries = entries := Option.some.inj (valid.symm.trans read)
  obtain ⟨alike, _, scanned⟩ := asChanges items changes more holds order
  exact ⟨contents, loaded, valid, holds, order, whole, alike, scanned whole⟩

end Settings

end RomCatalog
