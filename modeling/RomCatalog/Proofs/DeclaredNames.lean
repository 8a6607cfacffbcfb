import RomCatalog.Proofs.LastChange
import RomCatalog.Proofs.Linking

/-!
The names that generated code declares: a binding for every ROM, and the table. Bindings are told
apart by their identifiers, which the reported problems look at, but nothing looks at the name of
the table. It is that of a binding if an identifier is what it has behind the start of the bindings.
-/

namespace RomCatalog

namespace Settings

/-- The identifier whose binding has the name of the table. -/
def reserved? (settings : Settings) : Option String :=
  (settings.bindingStart.toList.isPrefixOf? settings.tableName.toList).map String.ofList

theorem reserved?_eq_some_iff (settings : Settings) (identifier : String) :
    settings.reserved? = some identifier ↔
      settings.bindingStart ++ identifier = settings.tableName := by
  rw [← String.toList_inj, String.toList_append, ← List.isPrefixOf?_eq_some_iff_append_eq]
  constructor
  · intro reserved
    obtain ⟨rest, remains, rfl⟩ := Option.map_eq_some_iff.mp reserved
    rw [remains, String.toList_ofList]
  · intro remains
    rw [reserved?, remains, Option.map_some, String.ofList_toList]

theorem tableName_notMem_iff (settings : Settings) (roms : List Rom) :
    settings.tableName ∉ roms.map settings.binding ↔
      ∀ rom ∈ roms, settings.reserved? ≠ some rom.identifier := by
  rw [List.mem_map, not_exists]
  constructor
  · intro absent rom listed reserved
    exact absent rom ⟨listed, (settings.reserved?_eq_some_iff rom.identifier).mp reserved⟩
  · rintro free rom ⟨listed, same⟩
    exact free rom listed ((settings.reserved?_eq_some_iff rom.identifier).mpr same)

theorem reserved?_changeAll {changes : List Change}
    (unchanged : ∀ change ∈ changes, change.kind ≠ .bindingStart ∧ change.kind ≠ .tableName)
    (settings : Settings) : (settings.changeAll changes).reserved? = settings.reserved? := by
  have start := held?_changeAll_of_unchanged (fun change member => (unchanged change member).1)
    settings
  have name := held?_changeAll_of_unchanged (fun change member => (unchanged change member).2)
    settings
  simp only [held?, Option.some.injEq, Change.bindingStart.injEq] at start
  simp only [held?, Option.some.injEq, Change.tableName.injEq] at name
  rw [reserved?, start, name, ← reserved?]

end Settings

def Code.names (code : List Line) : List String :=
  code.filterMap fun line =>
    match line with
    | .declaration _ binding _ => some binding
    | .head _ name => some name
    | .allowance | .blank | .row _ _ | .close => none

namespace Manifest

open Code

theorem names_declarationLines (settings : Settings) (roms : List Rom) :
    names (roms.flatMap (declarationLines settings)) = roms.map settings.binding := by
  induction roms with
  | nil => rfl
  | cons rom rest ih =>
      have first : names (declarationLines settings rom) = [settings.binding rom] := by
        unfold declarationLines
        cases settings.placement <;> rfl
      rw [List.flatMap_cons, List.map_cons, ← ih, ← List.singleton_append, ← first]
      exact List.filterMap_append

theorem names_lines (settings : Settings) (roms : List Rom) :
    names (lines settings roms) = roms.map settings.binding ++ [settings.tableName] := by
  have unnamed : names (roms.map (rowLine settings)) = [] := by
    simp [names, rowLine, List.filterMap_map, Function.comp_def]
  have split : names (lines settings roms) = names (roms.flatMap (declarationLines settings)) ++
      settings.tableName :: names (roms.map (rowLine settings)) := by
    simp [lines, tableLines, names]
  rw [split, names_declarationLines, unnamed]

theorem nodup_names_iff (settings : Settings) (roms : List Rom) :
    (names (lines settings roms)).Nodup ↔
      .repeated ∉ (Rom.problems roms).map Problem.kind ∧
        ∀ rom ∈ roms, settings.reserved? ≠ some rom.identifier := by
  rw [names_lines, ← List.concat_eq_append, List.nodup_concat, nodup_bindings_iff,
    Rom.repeated_notMem_iff, settings.tableName_notMem_iff, and_comm]

/-- What a manifest declares has distinct names exactly if no identifier is reported as repeated and
none is reserved by the table. The standard names reserve none, so there the report is enough. -/
theorem names_distinct :
    (∀ settings roms,
      text settings roms = printAll (lines settings roms) ∧
      names (lines settings roms) = roms.map settings.binding ++ [settings.tableName] ∧
      ((names (lines settings roms)).Nodup ↔
        .repeated ∉ (Rom.problems roms).map Problem.kind ∧
          ∀ rom ∈ roms, settings.reserved? ≠ some rom.identifier)) ∧
    ∀ changes : List Change,
      (∀ change ∈ changes, change.kind ≠ .bindingStart ∧ change.kind ≠ .tableName) →
      ∀ roms, .repeated ∉ (Rom.problems roms).map Problem.kind →
        (names (lines (Settings.default.changeAll changes) roms)).Nodup := by
  refine ⟨?_, ?_⟩
  · intro settings roms
    exact ⟨text_eq_printAll settings roms, names_lines settings roms,
      nodup_names_iff settings roms⟩
  · intro changes unchanged roms unrepeated
    rw [nodup_names_iff]
    refine ⟨unrepeated, ?_⟩
    intro rom _
    have unreserved : Settings.default.reserved? = none := by decide
    rw [Settings.reserved?_changeAll unchanged, unreserved]
    simp

theorem names_distinct_tapes :
    let settings := { Settings.default with bindingStart := "ROM" }
    let changes : List Change := [.root (Path.ofString "tapes"), .placement .atModule]
    let roms := [Rom.ofName "s", Rom.ofName "x-y", Rom.ofName "_S"]
    .repeated ∉ (Rom.problems roms).map Problem.kind ∧
      settings.reserved? = some "S" ∧
      ¬(names (lines settings roms)).Nodup ∧
      (∀ change ∈ changes, change.kind ≠ .bindingStart ∧ change.kind ≠ .tableName) ∧
      (names (lines (Settings.default.changeAll changes) roms)).Nodup := by
  intro settings changes roms
  have unrepeated : .repeated ∉ (Rom.problems roms).map Problem.kind := by decide +kernel
  have unchanged :
      ∀ change ∈ changes, change.kind ≠ .bindingStart ∧ change.kind ≠ .tableName := by decide
  obtain ⟨exactly, enough⟩ := names_distinct
  refine ⟨unrepeated, by decide, ?_, unchanged, enough changes unchanged roms unrepeated⟩
  intro distinct
  have unreserved := ((exactly settings roms).2.2.mp distinct).2
  exact unreserved (Rom.ofName "s") (by simp [roms]) (by decide +kernel)

end Manifest

end RomCatalog
