import RomCatalog.Manifest
import RomCatalog.Proofs.Code
import RomCatalog.Proofs.TableLookup

/-!
How the parts of a manifest refer to each other. Read back, a manifest holds a declaration and a
row for every ROM in the order of the list. Without reported problems no two declarations have the
same name, so a row leads to the declaration of its own ROM and from there to its file.
-/

namespace RomCatalog.Code

def declarations (lines : List Line) : List (String × String) :=
  lines.filterMap fun line =>
    match line with
    | .declaration _ binding literal => some (binding, literal)
    | _ => none

def rows (lines : List Line) : List (String × String) :=
  lines.filterMap fun line =>
    match line with
    | .row key binding => some (key, binding)
    | _ => none

def pathOf? (lines : List Line) (binding : String) : Option String :=
  ((declarations lines).lookup binding).bind Literal.value?

/-- The table that the code makes once the contents of files are put in place of their paths. -/
def link? (contents : String → Bytes) (lines : List Line) : Option Table :=
  (rows lines).mapM fun (key, binding) =>
    (pathOf? lines binding).map fun path => (key, contents path)

end RomCatalog.Code

namespace RomCatalog.Manifest

open Code

variable (settings : Settings)

def declarationLines (rom : Rom) : List Line :=
  let declaration : Line :=
    .declaration settings.placement (settings.binding rom) (Text.quote (settings.embedPath rom))
  match settings.placement with
  | .inFunction => [declaration]
  | .atModule => [.allowance, declaration]

def rowLine (rom : Rom) : Line :=
  .row rom.identifier (settings.binding rom)

def tableLines (roms : List Rom) : List Line :=
  .head settings.placement settings.tableName :: roms.map (rowLine settings) ++ [.close]

def lines (roms : List Rom) : List Line :=
  roms.flatMap (declarationLines settings) ++ .blank :: tableLines settings roms

theorem declaration_eq_printAll (rom : Rom) :
    declaration settings rom = printAll (declarationLines settings rom) := by
  unfold declaration declarationLines
  cases placed : settings.placement with
  | inFunction => simp [printAll, Line.print, keyword, typeMark, String.append_assoc]
  | atModule => simp [printAll, Line.print, keyword, typeMark, String.append_assoc]

theorem row_eq_print (rom : Rom) : row settings rom = (rowLine settings rom).print ++ "\n" := by
  simp [row, rowLine, Line.print, String.append_assoc]

theorem tableHead_eq_print :
    tableHead settings = (Line.head settings.placement settings.tableName).print ++ "\n" := by
  unfold tableHead
  cases placed : settings.placement with
  | inFunction => simp [Line.print, headKeyword, headMark, String.append_assoc]
  | atModule => simp [Line.print, headKeyword, headMark, String.append_assoc]

theorem printAll_append (lines others : List Line) :
    printAll (lines ++ others) = printAll lines ++ printAll others := by
  simp [printAll]

theorem declarations_eq_printAll (roms : List Rom) :
    Manifest.declarations settings roms = printAll (roms.flatMap (declarationLines settings)) := by
  induction roms with
  | nil => rfl
  | cons rom rest ih =>
      rw [List.flatMap_cons, printAll_append, ← ih, ← declaration_eq_printAll]
      simp [Manifest.declarations]

theorem table_eq_printAll (roms : List Rom) :
    table settings roms = printAll (tableLines settings roms) := by
  have listed : roms.map (row settings) =
      (roms.map (rowLine settings)).map fun line => line.print ++ "\n" := by
    rw [List.map_map]
    exact List.map_congr_left fun rom _ => row_eq_print settings rom
  rw [table, listed, tableHead_eq_print]
  simp [tableLines, printAll, Line.print, String.append_assoc]

theorem text_eq_printAll (roms : List Rom) :
    text settings roms = printAll (lines settings roms) := by
  have blank : printAll (.blank :: tableLines settings roms) =
      "\n" ++ printAll (tableLines settings roms) := by
    simp [printAll, Line.print]
  rw [text, declarations_eq_printAll, table_eq_printAll, lines, printAll_append, blank,
    String.append_assoc]

theorem declarations_flatMap (roms : List Rom) :
    Code.declarations (roms.flatMap (declarationLines settings)) =
      roms.map fun rom => (settings.binding rom, Text.quote (settings.embedPath rom)) := by
  induction roms with
  | nil => rfl
  | cons rom rest ih =>
      have first : Code.declarations (declarationLines settings rom) =
          [(settings.binding rom, Text.quote (settings.embedPath rom))] := by
        unfold declarationLines
        cases settings.placement <;> rfl
      rw [List.flatMap_cons, List.map_cons, ← ih, ← List.singleton_append, ← first]
      exact List.filterMap_append

theorem rows_flatMap (roms : List Rom) : rows (roms.flatMap (declarationLines settings)) = [] := by
  rw [rows, List.filterMap_flatMap, List.flatMap_eq_nil_iff]
  intro rom _
  unfold declarationLines
  cases settings.placement <;> rfl

theorem declarations_lines (roms : List Rom) :
    Code.declarations (lines settings roms) =
      roms.map fun rom => (settings.binding rom, Text.quote (settings.embedPath rom)) := by
  have noneInRows : Code.declarations (roms.map (rowLine settings)) = [] := by
    simp [Code.declarations, rowLine, List.filterMap_map, Function.comp_def]
  have split : Code.declarations (lines settings roms) =
      Code.declarations (roms.flatMap (declarationLines settings)) ++
        Code.declarations (roms.map (rowLine settings)) := by
    simp [lines, tableLines, Code.declarations]
  rw [split, declarations_flatMap, noneInRows, List.append_nil]

theorem rows_lines (roms : List Rom) :
    rows (lines settings roms) = roms.map fun rom => (rom.identifier, settings.binding rom) := by
  have listed : rows (roms.map (rowLine settings)) =
      roms.map fun rom => (rom.identifier, settings.binding rom) := by
    simp [rows, rowLine, List.filterMap_map, Function.comp_def]
  have split : rows (lines settings roms) =
      rows (roms.flatMap (declarationLines settings)) ++ rows (roms.map (rowLine settings)) := by
    simp [lines, tableLines, rows]
  rw [split, rows_flatMap, listed, List.nil_append]

theorem isWord_identifier {rom : Rom} (valid : rom.hasValidIdentifier = true) :
    IsWord rom.identifier := by
  intro c member
  have allowed := List.all_eq_true.mp valid c member
  simp only [Rom.isIdentifierChar, Bool.or_eq_true, beq_iff_eq] at allowed
  change (c.isUpper || c.isLower || c.isDigit || decide (c = '_')) = true
  simp only [Bool.or_eq_true, decide_eq_true_eq]
  rcases allowed with (upper | digit) | underscore
  · exact Or.inl (Or.inl (Or.inl upper))
  · exact Or.inl (Or.inr digit)
  · exact Or.inr underscore

variable {settings} in
theorem isWord_binding (startIsWord : IsWord settings.bindingStart) {rom : Rom}
    (valid : rom.hasValidIdentifier = true) : IsWord (settings.binding rom) := by
  intro c member
  rw [Settings.binding, String.toList_append, List.mem_append] at member
  rcases member with start | identifier
  · exact startIsWord c start
  · exact isWord_identifier valid c identifier

variable {settings} in
theorem wellFormed_lines (startIsWord : IsWord settings.bindingStart)
    (nameIsWord : IsWord settings.tableName) {roms : List Rom}
    (valid : ∀ rom ∈ roms, rom.hasValidIdentifier = true) :
    ∀ line ∈ lines settings roms, line.WellFormed := by
  intro line member
  simp only [lines, tableLines, List.mem_append, List.mem_cons, List.mem_flatMap, List.mem_map,
    List.not_mem_nil, or_false] at member
  rcases member with ⟨rom, listed, declared⟩ | rfl | (rfl | ⟨rom, listed, rfl⟩) | rfl
  · have isWord := isWord_binding startIsWord (valid rom listed)
    unfold declarationLines at declared
    cases placed : settings.placement with
    | inFunction =>
        simp only [placed, List.mem_singleton] at declared
        subst declared
        exact ⟨isWord, settings.embedPath rom, rfl⟩
    | atModule =>
        simp only [placed, List.mem_cons, List.not_mem_nil, or_false] at declared
        rcases declared with rfl | rfl
        · trivial
        · exact ⟨isWord, settings.embedPath rom, rfl⟩
  · trivial
  · exact nameIsWord
  · exact isWord_binding startIsWord (valid rom listed)
  · trivial

theorem nodup_bindings_iff (roms : List Rom) :
    (roms.map settings.binding).Nodup ↔ (roms.map Rom.identifier).Nodup := by
  have started : roms.map settings.binding =
      (roms.map Rom.identifier).map (settings.bindingStart ++ ·) := by
    rw [List.map_map]
    rfl
  have injective : Function.Injective (settings.bindingStart ++ ·) := fun _ _ same =>
    (String.append_right_inj settings.bindingStart).mp same
  rw [started, List.nodup_map_iff injective]

structure Links (roms : List Rom) (code : List Line) : Prop where
  complete : code = lines settings roms
  distinct : ((Code.declarations code).map Prod.fst).Nodup
  /-- The name in a row is declared once, for the ROM whose identifier is the key of the row. -/
  declaredOnce : ∀ key binding, (key, binding) ∈ rows code →
    ∃ rom ∈ roms, rom.identifier = key ∧
      ((Code.declarations code).map Prod.fst).count binding = 1 ∧
      (binding, Text.quote (settings.embedPath rom)) ∈ Code.declarations code
  /-- From an identifier over its row to a declaration whose literal denotes the right path. -/
  followed : ∀ rom ∈ roms, ∃ binding literal,
    (rows code).lookup rom.identifier = some binding ∧
    (Code.declarations code).lookup binding = some literal ∧
    Literal.value? literal = some (settings.embedPath rom)
  found : ∀ contents : String → Bytes, ∃ table, link? contents code = some table ∧
    ∀ rom ∈ roms, table.find? rom.identifier = some (contents (settings.embedPath rom))

theorem nodup_declared {roms : List Rom} (distinct : (roms.map Rom.identifier).Nodup) :
    ((Code.declarations (lines settings roms)).map Prod.fst).Nodup := by
  rw [declarations_lines, List.map_map]
  exact (nodup_bindings_iff settings roms).mpr distinct

theorem mem_declarations_lines {roms : List Rom} {rom : Rom} (listed : rom ∈ roms) :
    (settings.binding rom, Text.quote (settings.embedPath rom)) ∈
      Code.declarations (lines settings roms) := by
  rw [declarations_lines]
  exact List.mem_map.mpr ⟨rom, listed, rfl⟩

theorem lookup_declarations {roms : List Rom} (distinct : (roms.map Rom.identifier).Nodup)
    {rom : Rom} (listed : rom ∈ roms) :
    (Code.declarations (lines settings roms)).lookup (settings.binding rom) =
      some (Text.quote (settings.embedPath rom)) :=
  (Lookup.lookup_eq_some_iff_mem (nodup_declared settings distinct) _ _).mpr
    (mem_declarations_lines settings listed)

theorem lookup_rows {roms : List Rom} (distinct : (roms.map Rom.identifier).Nodup) {rom : Rom}
    (listed : rom ∈ roms) :
    (rows (lines settings roms)).lookup rom.identifier = some (settings.binding rom) := by
  have unique : ((rows (lines settings roms)).map Prod.fst).Nodup := by
    rw [rows_lines, List.map_map]
    exact distinct
  refine (Lookup.lookup_eq_some_iff_mem unique _ _).mpr ?_
  rw [rows_lines]
  exact List.mem_map.mpr ⟨rom, listed, rfl⟩

theorem link?_lines (contents : String → Bytes) {roms : List Rom}
    (distinct : (roms.map Rom.identifier).Nodup) :
    link? contents (lines settings roms) =
      some (Table.embed (fun rom => contents (settings.embedPath rom)) roms) := by
  have resolved : ∀ rom ∈ roms, pathOf? (lines settings roms) (settings.binding rom) =
      some (settings.embedPath rom) := by
    intro rom listed
    rw [pathOf?, lookup_declarations settings distinct listed, Option.bind_some,
      Literal.value?_quote]
  rw [link?, rows_lines, List.mapM_map]
  generalize lines settings roms = code at resolved
  clear distinct
  induction roms with
  | nil => rfl
  | cons rom rest ih =>
      have first := resolved rom (by simp)
      have tail := ih fun other member => resolved other (List.mem_cons_of_mem _ member)
      simp only [List.mapM_cons, Function.comp, first] at tail ⊢
      rw [tail]
      rfl

theorem find?_embed (contents : Rom → Bytes) {roms : List Rom}
    (distinct : (roms.map Rom.identifier).Nodup) {rom : Rom} (listed : rom ∈ roms) :
    (Table.embed contents roms).find? rom.identifier = some (contents rom) := by
  have unique : (((roms.map fun rom => (rom, contents rom)).map Prod.fst).map
      Rom.identifier).Nodup := by
    simpa [Function.comp_def] using distinct
  rw [Table.embed_eq_ofPairs]
  exact Table.find?_ofPairs unique (List.mem_map.mpr ⟨rom, listed, rfl⟩)

theorem links_lines {roms : List Rom} (distinct : (roms.map Rom.identifier).Nodup) :
    Links settings roms (lines settings roms) where
  complete := rfl
  distinct := nodup_declared settings distinct
  declaredOnce := by
    intro key binding row
    rw [rows_lines] at row
    obtain ⟨rom, listed, same⟩ := List.mem_map.mp row
    obtain ⟨rfl, rfl⟩ := Prod.mk.inj same
    have declared := mem_declarations_lines settings listed
    have once := List.count_eq_one_of_mem (nodup_declared settings distinct)
      (List.mem_map.mpr ⟨_, declared, rfl⟩)
    exact ⟨rom, listed, rfl, once, declared⟩
  followed := fun rom listed =>
    ⟨settings.binding rom, Text.quote (settings.embedPath rom), lookup_rows settings distinct listed,
      lookup_declarations settings distinct listed, Literal.value?_quote _⟩
  found := fun contents =>
    ⟨_, link?_lines settings contents distinct, fun _ listed => find?_embed _ distinct listed⟩

/-- If words are configured and no problem is reported, a manifest reads back as code that links
its ROMs. -/
theorem read?_text_links (roms : List Rom) (startIsWord : IsWord settings.bindingStart)
    (nameIsWord : IsWord settings.tableName) (clean : Rom.problems roms = []) :
    ∃ code, Code.read? (text settings roms) = some code ∧ Links settings roms code := by
  obtain ⟨valid, distinct⟩ := (Rom.problems_eq_nil_iff roms).mp clean
  refine ⟨lines settings roms, ?_, links_lines settings distinct⟩
  rw [text_eq_printAll]
  exact read?_printAll _ (wellFormed_lines startIsWord nameIsWord valid)

theorem read?_text_links_quoted :
    let settings := { Settings.default with
      embedding := .after "a\"b\\\n/", placement := .atModule }
    let roms := [Rom.ofName "game1.bin", Rom.ofName "TANK"]
    Rom.problems roms = [] ∧
      ∃ code, Code.read? (text settings roms) = some code ∧ Links settings roms code :=
  ⟨by decide +kernel, read?_text_links _ _ (by decide) (by decide) (by decide +kernel)⟩

end RomCatalog.Manifest
