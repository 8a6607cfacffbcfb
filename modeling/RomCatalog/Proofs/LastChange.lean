import RomCatalog.Proofs.Footprint
import RomCatalog.Proofs.SettingsChanges

/-!
Which of several changes counts. Each setting is that of the last change about it, so changes about
different settings can trade places and one that is followed by another about the same setting can
be left out. Only embedded paths depend on two settings: once they have a start of their own the
scanned directory has no part in them any more.
-/

namespace RomCatalog

namespace Change

def last? (kind : Kind) (changes : List Change) : Option Change :=
  (changes.filter fun change => change.kind = kind).getLast?

theorem last?_cons (kind : Kind) (change : Change) (rest : List Change) :
    last? kind (change :: rest) =
      (last? kind rest).or (if change.kind = kind then some change else none) := by
  unfold last?
  by_cases same : change.kind = kind
  · simp [same, List.getLast?_cons, Option.or_some]
  · simp [same]

theorem last?_concat (changes : List Change) (change : Change) :
    last? change.kind (changes ++ [change]) = some change := by
  simp [last?]

theorem last?_eq_none_iff (kind : Kind) (changes : List Change) :
    last? kind changes = none ↔ ∀ change ∈ changes, change.kind ≠ kind := by
  simp [last?]

theorem last?_filter (kind : Kind) (kept : Change → Bool) {changes : List Change}
    (keeps : ∀ change ∈ changes, change.kind = kind → kept change = true) :
    last? kind (changes.filter kept) = last? kind changes := by
  unfold last?
  rw [List.filter_filter]
  congr 1
  apply List.filter_congr
  intro change member
  by_cases same : change.kind = kind
  · simp [same, keeps change member same]
  · simp [same]

end Change

namespace Settings

/-- A setting, told by the change that gives it. Embedded paths without a start of their own have
none to tell. -/
def held? (settings : Settings) : Change.Kind → Option Change
  | .root => some (.root settings.root)
  | .includeStart =>
      match settings.embedding with
      | .after start => some (.includeStart start)
      | .beside | .absolute => none
  | .bindingStart => some (.bindingStart settings.bindingStart)
  | .tableName => some (.tableName settings.tableName)
  | .sorted => some (.sorted settings.sorted)
  | .placement => some (.placement settings.placement)
  | .output => some (.output settings.outputDirectory settings.outputFile)

theorem held?_change (settings : Settings) (change : Change) (kind : Change.Kind) :
    (settings.change change).held? kind =
      if change.kind = kind then some change else settings.held? kind := by
  cases change <;> cases kind <;> rfl

theorem held?_changeAll (settings : Settings) (changes : List Change) (kind : Change.Kind) :
    (settings.changeAll changes).held? kind =
      (Change.last? kind changes).or (settings.held? kind) := by
  induction changes generalizing settings with
  | nil => rfl
  | cons change rest ih =>
      have tail := ih (settings.change change)
      rw [held?_change] at tail
      rw [changeAll, List.foldl_cons, Change.last?_cons, Option.or_assoc]
      refine tail.trans ?_
      by_cases same : change.kind = kind
      · simp [same]
      · simp [same]

theorem held?_changeAll_of_unchanged {changes : List Change} {kind : Change.Kind}
    (unchanged : ∀ change ∈ changes, change.kind ≠ kind) (settings : Settings) :
    (settings.changeAll changes).held? kind = settings.held? kind := by
  rw [held?_changeAll, (Change.last?_eq_none_iff kind changes).mpr unchanged, Option.none_or]

theorem change_change {a b : Change} (same : a.kind = b.kind) (settings : Settings) :
    (settings.change a).change b = settings.change b := by
  cases a <;> cases b <;> first | rfl | exact nomatch same

theorem changeAll_swap {a b : Change} (different : a.kind ≠ b.kind) (settings : Settings)
    (before after : List Change) :
    settings.changeAll (before ++ a :: b :: after) =
      settings.changeAll (before ++ b :: a :: after) := by
  have twice (first second : Change) : settings.changeAll (before ++ first :: second :: after) =
      (((settings.changeAll before).change first).change second).changeAll after := by
    rw [changeAll_append]
    rfl
  rw [twice, twice, change_comm different]

theorem changeAll_change_of_mem {a : Change} {after : List Change}
    (again : ∃ b ∈ after, b.kind = a.kind) (settings : Settings) :
    (settings.change a).changeAll after = settings.changeAll after := by
  induction after generalizing settings with
  | nil => simp at again
  | cons b rest ih =>
      rw [changeAll, changeAll, List.foldl_cons, List.foldl_cons]
      by_cases same : b.kind = a.kind
      · rw [change_change same.symm]
      · have later : ∃ c ∈ rest, c.kind = a.kind := by
          obtain ⟨c, member, found⟩ := again
          rcases List.mem_cons.mp member with rfl | member
          · exact absurd found same
          · exact ⟨c, member, found⟩
        rw [change_comm (Ne.symm same)]
        exact ih later (settings.change b)

theorem changeAll_delete {a : Change} {after : List Change}
    (again : ∃ b ∈ after, b.kind = a.kind) (settings : Settings) (before : List Change) :
    settings.changeAll (before ++ a :: after) = settings.changeAll (before ++ after) := by
  rw [changeAll_append, changeAll_append]
  exact changeAll_change_of_mem again (settings.changeAll before)

/-! Embedded paths, with a start of their own and without. -/

theorem embedPath_of_held {settings : Settings} {start : String}
    (given : settings.held? .includeStart = some (.includeStart start)) (rom : Rom) :
    settings.embedPath rom = start ++ rom.name := by
  cases embedded : settings.embedding with
  | beside | absolute => simp [held?, embedded] at given
  | after other =>
      obtain rfl : other = start := by simpa [held?, embedded] using given
      rw [embedPath, embedded]

theorem embedding_of_unheld {settings : Settings} {changes : List Change}
    (none : (settings.changeAll changes).held? .includeStart = none) :
    (settings.changeAll changes).embedding = settings.embedding := by
  rcases embedding_changeAll settings changes with kept | ⟨start, given⟩
  · exact kept
  · simp [held?, given] at none

theorem held?_includeStart_of_filter {changes others : List Change}
    (same : others.filter (·.kind ≠ .root) = changes.filter (·.kind ≠ .root))
    (settings : Settings) :
    (settings.changeAll others).held? .includeStart =
      (settings.changeAll changes).held? .includeStart := by
  have rootless (changes : List Change) : Change.last? .includeStart changes =
      Change.last? .includeStart (changes.filter (·.kind ≠ .root)) := by
    symm
    apply Change.last?_filter
    intro change _ start
    simp [start]
  rw [held?_changeAll, held?_changeAll, rootless others, same, ← rootless]

/-- What has come of the settings after the changes: each setting is that of the last change about
it, and an embedded path has the last start that was given or else follows the last root. -/
structure LastCounts (settings : Settings) (changes : List Change) (changed : Settings) :
    Prop where
  held : ∀ kind, changed.held? kind = (Change.last? kind changes).or (settings.held? kind)
  base : changed.base = settings.base
  announcing : changed.announcing = settings.announcing
  started : ∀ start, changed.held? .includeStart = some (.includeStart start) → ∀ others,
    others.filter (·.kind ≠ .root) = changes.filter (·.kind ≠ .root) →
      ∀ rom, (settings.changeAll others).embedPath rom = start ++ rom.name
  unstarted : changed.held? .includeStart = none →
    ∀ rom, changed.embedPath rom = { settings with root := changed.root }.embedPath rom

theorem lastCounts_changeAll (settings : Settings) (changes : List Change) :
    LastCounts settings changes (settings.changeAll changes) where
  held := held?_changeAll settings changes
  base := base_changeAll settings changes
  announcing := announcing_changeAll settings changes
  started := by
    intro start given others same rom
    rw [← held?_includeStart_of_filter same] at given
    exact embedPath_of_held given rom
  unstarted := by
    intro none rom
    simp only [embedPath, romDirectory, embedding_of_unheld none, base_changeAll]

open SettingsText

theorem held?_load {fs : FileSystem} {path : Path} {text : String} {settings : Settings}
    (contents : fs.readText path = .ok text) (loaded : load fs path = .ok settings)
    {entries : Toml.Entries} (valid : Toml.document? text.toList = some entries)
    {items : List Item} (holds : List.Forall₂ Holds items entries) {changes : List Change}
    (order : changes.Perm (items.map Item.change)) (kind : Change.Kind) :
    settings.held? kind = (Change.last? kind changes).or (default.held? kind) := by
  rw [load_eq_changeAll contents valid holds order, Outcome.ok.injEq] at loaded
  rw [← loaded, ← held?_changeAll]
  cases kind <;> rfl

/-- Changes are independent of each other and the last one about a setting counts, whatever the
settings are that they start from. The keys of a settings file count like changes before. -/
theorem last_change_counts :
    (∀ settings changes, LastCounts settings changes (settings.changeAll changes)) ∧
    (∀ (settings : Settings) before a b after, a.kind ≠ b.kind →
      settings.changeAll (before ++ a :: b :: after) =
        settings.changeAll (before ++ b :: a :: after)) ∧
    (∀ (settings : Settings) before a after, (∃ b ∈ after, b.kind = a.kind) →
      settings.changeAll (before ++ a :: after) = settings.changeAll (before ++ after)) ∧
    ∀ fs path text settings entries items, FileSystem.readText fs path = .ok text →
      load fs path = .ok settings → Toml.document? text.toList = some entries →
      List.Forall₂ Holds items entries →
        ∀ kind, settings.held? kind =
          (Change.last? kind (items.map Item.change)).or (default.held? kind) := by
  refine ⟨lastCounts_changeAll, ?_, ?_, ?_⟩
  · intro settings before a b after different
    exact changeAll_swap different settings before after
  · intro settings before a after again
    exact changeAll_delete again settings before
  · intro fs path text settings entries items contents loaded valid holds kind
    exact held?_load contents loaded valid holds (List.Perm.refl _) kind

theorem last_change_counts_prefixed :
    let path := Path.ofString "roms.toml"
    let carts := Path.ofString "carts/"
    let tapes := Path.ofString "tapes"
    let pong := Rom.ofName "PONG"
    let settings := { default with root := carts, embedding := .after "../", sorted := false }
    let items : List Item := [.sorted false, .root "carts/", .includeStart "../"]
    (prefixedShelf.readText path = .ok prefixedText ∧ load prefixedShelf path = .ok settings ∧
      Toml.document? prefixedText.toList = some prefixedEntries ∧
      List.Forall₂ Holds items prefixedEntries ∧
      settings.held? .includeStart =
        (Change.last? .includeStart (items.map Item.change)).or (default.held? .includeStart)) ∧
    (settings.changeAll [.sorted true]).held? .includeStart = some (.includeStart "../") ∧
    (settings.changeAll [.root tapes, .sorted true]).embedPath pong = "../" ++ "PONG" ∧
    (default.changeAll [.root tapes, .root carts]).held? .includeStart = none ∧
    (default.changeAll [.root tapes, .root carts]).embedPath pong =
      { default with root := carts }.embedPath pong ∧
    settings.changeAll [.root tapes, .includeStart "a/", .root carts] =
      settings.changeAll [.includeStart "a/", .root tapes, .root carts] ∧
    settings.changeAll [.includeStart "a/", .root tapes, .root carts] =
      settings.changeAll [.includeStart "a/", .root carts] := by
  intro path carts tapes pong settings items
  have contents : prefixedShelf.readText path = .ok prefixedText := rfl
  have loaded : load prefixedShelf path = .ok settings := rfl
  have valid : Toml.document? prefixedText.toList = some prefixedEntries := rfl
  have holds : List.Forall₂ Holds items prefixedEntries :=
    .cons ⟨rfl, _, rfl⟩ (.cons ⟨rfl, _, rfl⟩ (.cons ⟨rfl, _, rfl⟩ .nil))
  obtain ⟨counts, swaps, deletes, counted⟩ := last_change_counts
  have sorting := counts settings [.sorted true]
  have rooting := counts default [.root tapes, .root carts]
  refine ⟨⟨contents, loaded, valid, holds, ?_⟩, rfl, ?_, rfl, ?_, ?_, ?_⟩
  · exact counted _ _ _ _ _ _ contents loaded valid holds .includeStart
  · exact sorting.started "../" rfl [.root tapes, .sorted true] rfl pong
  · exact rooting.unstarted rfl pong
  · exact swaps settings [] (.root tapes) (.includeStart "a/") [.root carts] (by decide)
  · exact deletes settings [.includeStart "a/"] (.root tapes) [.root carts] (by decide)

end Settings

end RomCatalog
