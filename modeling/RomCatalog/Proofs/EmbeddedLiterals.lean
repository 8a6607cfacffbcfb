import RomCatalog.Manifest
import RomCatalog.Proofs.Literal

/-!
The literals of a manifest. Each declaration holds one literal, for the embedded path, and so does
each row, for the identifier. Whatever the names are, such a literal is read from its own first
character to its own last one, and it denotes what it stands for.
-/

namespace RomCatalog

namespace Literal

theorem prepend_eq_some_iff {c : Char} {found : Option (List Char × List Char)}
    {meant rest : List Char} :
    Toml.prepend c found = some (meant, rest) ↔
      ∃ tail, found = some (tail, rest) ∧ meant = c :: tail := by
  cases found with
  | none => simp [Toml.prepend]
  | some pair =>
      obtain ⟨tail, left⟩ := pair
      simp only [Toml.prepend, Option.map_some, Option.some.injEq, Prod.mk.injEq]
      constructor
      · rintro ⟨rfl, rfl⟩
        exact ⟨tail, ⟨rfl, rfl⟩, rfl⟩
      · rintro ⟨other, ⟨rfl, rfl⟩, rfl⟩
        exact ⟨rfl, rfl⟩

theorem readFrom_append {state : Option Escape} {text meant rest : List Char}
    (read : readFrom state text = some (meant, rest)) (more : List Char) :
    readFrom state (text ++ more) = some (meant, rest ++ more) := by
  induction text generalizing state meant with
  | nil => simp [readFrom] at read
  | cons c text ih =>
      rw [List.cons_append]
      cases state with
      | none =>
          simp only [readFrom] at read ⊢
          split at read
          · rename_i mark
            obtain ⟨rfl, rfl⟩ := Prod.mk.inj (Option.some.inj read)
            rw [if_pos mark]
          rename_i notMark
          rw [if_neg notMark]
          split at read
          · rename_i backslash
            rw [if_pos backslash]
            exact ih read
          rename_i notBackslash
          rw [if_neg notBackslash]
          split at read
          · simp at read
          · rename_i notReturn
            rw [if_neg notReturn]
            obtain ⟨tail, readTail, rfl⟩ := prepend_eq_some_iff.mp read
            exact prepend_eq_some_iff.mpr ⟨tail, ih readTail, rfl⟩
      | some escape =>
          simp only [readFrom] at read ⊢
          split at read
          · rename_i step
            obtain ⟨tail, readTail, rfl⟩ := prepend_eq_some_iff.mp read
            exact prepend_eq_some_iff.mpr ⟨tail, ih readTail, rfl⟩
          · exact ih read
          · simp at read

theorem read?_append {text meant rest : List Char} (read : read? text = some (meant, rest))
    (more : List Char) : read? (text ++ more) = some (meant, rest ++ more) := by
  unfold read? at read
  split at read
  · exact readFrom_append read more
  · simp at read

/-- The text is one literal. It ends at its last character, whatever follows, and not before, and
none of its characters is a control. -/
structure Denotes (literal meant : String) : Prop where
  whole : ∀ rest, read? (literal.toList ++ rest) = some (meant.toList, rest)
  unfinished : ∀ part, part <+: literal.toList → part ≠ literal.toList → read? part = none
  visible : ∀ c ∈ literal.toList, isVisible c = true

theorem denotes_quote (text : String) : Denotes (Text.quote text) text where
  whole := read?_quote text
  visible := isVisible_quote text
  unfinished := by
    rintro part ⟨more, split⟩ shorter
    cases found : read? part with
    | none => rfl
    | some pair =>
        -- the part would end the whole literal before the characters that it lacks
        obtain ⟨meant, rest⟩ := pair
        have read := read?_append found more
        have whole := read?_quote text []
        rw [List.append_nil, ← split, read, Option.some.injEq, Prod.mk.injEq] at whole
        have nothing : more = [] := (List.append_eq_nil_iff.mp whole.2).2
        rw [nothing, List.append_nil] at split
        exact absurd split shorter

end Literal

namespace Manifest

variable (settings : Settings)

def declarationStart (rom : Rom) : String :=
  match settings.placement with
  | .inFunction => "static " ++ settings.binding rom ++ ": &'static [u8] = include_bytes!("
  | .atModule =>
      "#[allow(dead_code)]\npub static " ++ settings.binding rom ++ ": &[u8] = include_bytes!("

def rowTexts (roms : List Rom) : String :=
  String.join (roms.map (row settings))

theorem declaration_eq (rom : Rom) :
    declaration settings rom =
      declarationStart settings rom ++ Text.quote (settings.embedPath rom) ++ ");\n" := by
  unfold declaration declarationStart
  cases settings.placement with
  | inFunction => rfl
  | atModule =>
      have opened : "#[allow(dead_code)]\npub static " = "#[allow(dead_code)]\n" ++ "pub static " :=
        rfl
      simp only [opened, String.append_assoc]

theorem declarations_append (earlier later : List Rom) :
    declarations settings (earlier ++ later) =
      declarations settings earlier ++ declarations settings later := by
  simp [declarations]

theorem rowTexts_append (earlier later : List Rom) :
    rowTexts settings (earlier ++ later) = rowTexts settings earlier ++ rowTexts settings later := by
  simp [rowTexts]

theorem text_at_declaration (earlier later : List Rom) (rom : Rom) :
    text settings (earlier ++ rom :: later) =
      declarations settings earlier ++ declarationStart settings rom ++
        Text.quote (settings.embedPath rom) ++
        (");\n" ++ declarations settings later ++ "\n" ++
          table settings (earlier ++ rom :: later)) := by
  have first : declarations settings (rom :: later) =
      declaration settings rom ++ declarations settings later := by
    simp [declarations]
  rw [text, declarations_append, first, declaration_eq]
  simp only [String.append_assoc]

theorem text_at_row (earlier later : List Rom) (rom : Rom) :
    text settings (earlier ++ rom :: later) =
      declarations settings (earlier ++ rom :: later) ++ "\n" ++ tableHead settings ++
        rowTexts settings earlier ++ "    (" ++ Text.quote rom.identifier ++
        (", " ++ settings.binding rom ++ "),\n" ++ rowTexts settings later ++ "];\n") := by
  have first : rowTexts settings (rom :: later) = row settings rom ++ rowTexts settings later := by
    simp [rowTexts]
  rw [text, table, ← rowTexts, rowTexts_append, first, row]
  simp only [String.append_assoc]

/-- In the declaration and in the row of every ROM stands a literal that denotes its embedded path
and its identifier. -/
theorem literals_denote (earlier later : List Rom) (rom : Rom) :
    let roms := earlier ++ rom :: later
    (∃ literal, Literal.Denotes literal (settings.embedPath rom) ∧
      text settings roms =
        declarations settings earlier ++ declarationStart settings rom ++ literal ++
          (");\n" ++ declarations settings later ++ "\n" ++ table settings roms)) ∧
    ∃ literal, Literal.Denotes literal rom.identifier ∧
      text settings roms =
        declarations settings roms ++ "\n" ++ tableHead settings ++ rowTexts settings earlier ++
          "    (" ++ literal ++
          (", " ++ settings.binding rom ++ "),\n" ++ rowTexts settings later ++ "];\n") := by
  refine ⟨⟨Text.quote (settings.embedPath rom), Literal.denotes_quote _, ?_⟩,
    Text.quote rom.identifier, Literal.denotes_quote _, ?_⟩
  · exact text_at_declaration settings earlier later rom
  · exact text_at_row settings earlier later rom

/-- A path with a quotation mark, a backslash, a line end and a character that joins the one before
it, read up to the bracket behind its literal. -/
example : Literal.read? ((Text.quote "a\"\\\n\u0301/PONG").toList ++ [')']) =
    some ("a\"\\\n\u0301/PONG".toList, [')']) := by decide +kernel

end Manifest

end RomCatalog
