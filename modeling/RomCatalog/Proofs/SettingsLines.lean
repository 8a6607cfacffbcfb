import Mathlib.Data.List.DropRight
import RomCatalog.Proofs.KeySpelling
import RomCatalog.Proofs.SettingsText
import RomCatalog.Toml.Statement

/-!
Reading settings files line by line: a line with an item is read as the entry that gives the item,
and any other line is passed over.
-/

namespace RomCatalog.SettingsText

open Spelling

/-! Runs of characters of one kind, up to a character of another kind or to the end. -/

def Stops (kind : Char → Bool) (text : List Char) : Prop :=
  ∀ c ∈ text.head?, kind c = false

variable {kind : Char → Bool} {run rest : List Char}

theorem dropWhile_append_of_stops (all : ∀ c ∈ run, kind c = true) (stops : Stops kind rest) :
    (run ++ rest).dropWhile kind = rest := by
  rw [List.dropWhile_append_of_pos all]
  cases rest with
  | nil => rfl
  | cons c rest => exact List.dropWhile_cons_of_neg (by simp [stops c (by simp)])

theorem takeWhile_append_of_stops (all : ∀ c ∈ run, kind c = true) (stops : Stops kind rest) :
    (run ++ rest).takeWhile kind = run := by
  rw [List.takeWhile_append_of_pos all]
  cases rest with
  | nil => simp
  | cons c rest => rw [List.takeWhile_cons_of_neg (by simp [stops c (by simp)]), List.append_nil]

theorem isBlank_of_allBlank {blanks : List Char} (blank : AllBlank blanks) :
    ∀ c ∈ blanks, Toml.isBlank c = true := by
  intro c member
  rcases blank c member with rfl | rfl
  · rfl
  · rfl

theorem Stops.append {text : List Char} (stops : Stops kind text) (others : Stops kind rest) :
    Stops kind (text ++ rest) := by
  cases text with
  | nil => exact others
  | cons c text => simpa [Stops] using stops

theorem AllBlank.stops {blanks : List Char} (blank : AllBlank blanks) (space : kind ' ' = false)
    (tab : kind '\t' = false) : Stops kind blanks := by
  intro c member
  rcases blank c (List.mem_of_mem_head? member) with rfl | rfl
  · exact space
  · exact tab

theorem Passed.stops {line : List Char} (passed : Passed line) (space : kind ' ' = false)
    (tab : kind '\t' = false) (hash : kind '#' = false) : Stops kind line := by
  cases passed with
  | blanks blank => exact blank.stops space tab
  | comment blank _ => exact (blank.stops space tab).append (by simpa [Stops] using hash)

theorem skipBlanks_append {blanks : List Char} (blank : AllBlank blanks)
    (stops : Stops Toml.isBlank rest) : Toml.skipBlanks (blanks ++ rest) = rest :=
  dropWhile_append_of_stops (isBlank_of_allBlank blank) stops

theorem skipBlanks_of_stops (stops : Stops Toml.isBlank rest) : Toml.skipBlanks rest = rest := by
  have none : AllBlank [] := by simp [AllBlank]
  exact skipBlanks_append none stops

/-! Line ends and what is passed over before them. -/

/-- What follows a line, and what is left of it once the line is ended. -/
inductive Closes : List Char → List Char → Prop
  | last : Closes [] []
  | line {ending rest : List Char} : LineEnd ending → Closes (ending ++ rest) rest

theorem newline?_of_closes {after rest : List Char} : Closes after rest →
    (match after with
      | [] => some []
      | after => Toml.newline? after) = some rest := by
  intro closes
  cases closes with
  | last => rfl
  | line ending =>
      cases ending with
      | short => rfl
      | long => rfl

theorem Closes.stops {after rest : List Char} (closes : Closes after rest)
    (newline : kind '\n' = false) (carriageReturn : kind '\r' = false) : Stops kind after := by
  cases closes with
  | last => simp [Stops]
  | line ending =>
      cases ending with
      | short => simpa [Stops] using newline
      | long => simpa [Stops] using carriageReturn

theorem lineEnd?_passed {line after rest : List Char} (passed : Passed line)
    (closes : Closes after rest) : Toml.lineEnd? (line ++ after) = some rest := by
  have unblank : Stops Toml.isBlank after := closes.stops rfl rfl
  cases passed with
  | blanks blank =>
      rw [Toml.lineEnd?, skipBlanks_append blank unblank]
      have uncommented : Toml.skipComment after = after := by
        cases closes with
        | last => rfl
        | line ending => cases ending <;> rfl
      rw [uncommented]
      exact newline?_of_closes closes
  | comment blank plain =>
      have all : ∀ c ∈ _, Toml.isPlain c = true := fun c member => (isPlain_iff c).mpr (plain c member)
      rw [Toml.lineEnd?, List.append_assoc, skipBlanks_append blank (by simp [Stops]; rfl),
        List.cons_append, Toml.skipComment,
        dropWhile_append_of_stops all (closes.stops rfl rfl)]
      exact newline?_of_closes closes

/-! A key, an equals sign and a value. -/

theorem isBlank_of_isKeyChar {c : Char} (named : Toml.isKeyChar c = true) :
    Toml.isBlank c = false := by
  have notSpace : c ≠ ' ' := ne_of_isKeyChar named rfl
  have notTab : c ≠ '\t' := ne_of_isKeyChar named rfl
  simp [Toml.isBlank, notSpace, notTab]

theorem simpleKey?_bare {name rest : List Char} (some? : name ≠ [])
    (bare : ∀ c ∈ name, Toml.isKeyChar c = true) (stops : Stops Toml.isKeyChar rest) :
    ∃ span, Toml.simpleKey? (name ++ rest) = some (⟨String.ofList name, span⟩, rest) := by
  have unquoted : Toml.lineString? (name ++ rest) = none := by
    cases name with
    | nil => exact absurd rfl some?
    | cons c name => exact lineString?_of_isKeyChar (bare c (by simp)) _
  refine ⟨Toml.Span.between (name ++ rest) rest, ?_⟩
  simp only [Toml.simpleKey?, unquoted, takeWhile_append_of_stops bare stops,
    dropWhile_append_of_stops bare stops]
  cases name with
  | nil => exact absurd rfl some?
  | cons c name => rfl

theorem Item.bare (item : Item) :
    item.key.toList ≠ [] ∧ ∀ c ∈ item.key.toList, Toml.isKeyChar c = true := by
  have all : ∀ key ∈ keys, key.toList ≠ [] ∧ key.toList.all Toml.isKeyChar = true := by decide
  rw [← List.all_eq_true]
  exact all item.key item.key_mem

theorem Item.key_cons (item : Item) :
    ∃ c name, item.key.toList = c :: name ∧ Toml.isKeyChar c = true := by
  obtain ⟨some?, bare⟩ := item.bare
  cases written : item.key.toList with
  | nil => exact absurd written some?
  | cons c name => exact ⟨c, name, rfl, bare c (by simp [written])⟩

theorem Item.stops_key (item : Item) (rest : List Char) :
    Stops Toml.isBlank (item.key.toList ++ rest) := by
  obtain ⟨c, name, written, named⟩ := item.key_cons
  simpa [Stops, written] using isBlank_of_isKeyChar named

theorem stops_equals {before : List Char} (blank : AllBlank before) (rest : List Char) :
    Stops Toml.isKeyChar (before ++ '=' :: rest) :=
  (blank.stops rfl rfl).append (by simp [Stops]; rfl)

theorem keys?_bare (item : Item) (parts : Nat) {before : List Char} (blank : AllBlank before)
    (rest : List Char) :
    ∃ span, Toml.keys? (parts + 1) (item.key.toList ++ (before ++ '=' :: rest)) =
      some ([⟨item.key, span⟩], '=' :: rest) := by
  obtain ⟨some?, bare⟩ := item.bare
  obtain ⟨span, named⟩ := simpleKey?_bare some? bare (stops_equals blank rest)
  have unindented : Toml.skipBlanks (item.key.toList ++ (before ++ '=' :: rest)) =
      item.key.toList ++ (before ++ '=' :: rest) :=
    skipBlanks_of_stops (item.stops_key _)
  have equals : Toml.skipBlanks (before ++ '=' :: rest) = '=' :: rest :=
    skipBlanks_append blank (by simp [Stops]; rfl)
  refine ⟨span, ?_⟩
  simp only [Toml.keys?, unindented, named, equals, String.ofList_toList, Option.bind_eq_bind,
    Option.bind_some]
  rfl

def IsMark (c : Char) : Bool :=
  c = '"' || c = '\''

theorem head?_spelledAll {text written : List Char} (spells : SpellsAll text written) :
    ∀ c ∈ written.head?, c ≠ '"' := by
  cases spells with
  | nil => simp
  | cons spelled _ =>
      cases spelled with
      | plain _ notMark _ => simpa using notMark
      | letter _ => simp
      | short _ _ => simp
      | long _ => simp

theorem notMark_of_stops {mark : Char} {more : List Char} (isMark : IsMark mark = true)
    (stops : Stops IsMark rest) : rest ≠ mark :: more := by
  rintro rfl
  have notMark := stops mark (by simp)
  rw [isMark] at notMark
  simp at notMark

theorem string?_quoted {text quoted : List Char} (quotes : Quotes text quoted)
    (stops : Stops IsMark rest) : Toml.string? (quoted ++ rest) = some (text, rest) := by
  have oneLine := lineString?_quoted quotes rest
  cases quotes with
  | basic spells =>
      rename_i written
      have twoMarks : ∀ more, written ++ ('"' :: rest) ≠ '"' :: '"' :: more := by
        intro more same
        cases written with
        | nil => exact notMark_of_stops rfl stops (by simpa using same)
        | cons c written => exact head?_spelledAll spells c (by simp) (List.cons.inj same).1
      unfold Toml.string?
      split
      · rename_i more same
        exact absurd (by simpa using same) (twoMarks more)
      · rename_i same
        simp at same
      · exact oneLine
  | literal _ unmarked =>
      have twoMarks : ∀ more, text ++ ('\'' :: rest) ≠ '\'' :: '\'' :: more := by
        intro more same
        cases text with
        | nil => exact notMark_of_stops rfl stops (by simpa using same)
        | cons c text => exact unmarked (by simp [(List.cons.inj same).1])
      unfold Toml.string?
      split
      · rename_i same
        simp at same
      · rename_i more same
        exact absurd (by simpa using same) (twoMarks more)
      · exact oneLine

theorem quotes_cons {text quoted : List Char} (quotes : Quotes text quoted) :
    ∃ mark more, IsMark mark = true ∧ quoted = mark :: more := by
  cases quotes with
  | basic _ => exact ⟨'"', _, rfl, rfl⟩
  | literal _ => exact ⟨'\'', _, rfl, rfl⟩

theorem Denotes.stops_append {value : Toml.Value} {written : List Char}
    (denotes : Denotes value written) (rest : List Char) :
    Stops Toml.isBlank (written ++ rest) := by
  cases denotes with
  | yes => simp [Stops]; rfl
  | no => simp [Stops]; rfl
  | string quotes =>
      obtain ⟨mark, more, isMark, rfl⟩ := quotes_cons quotes
      simp only [IsMark, Bool.or_eq_true, decide_eq_true_eq] at isMark
      rcases isMark with rfl | rfl
      · simp [Stops]; rfl
      · simp [Stops]; rfl

theorem value?_quoted {mark : Char} (isMark : IsMark mark = true) (more : List Char) :
    Toml.value? Toml.depthLimit (mark :: more) =
      (Toml.string? (mark :: more)).map fun (found, rest) => (.string (String.ofList found), rest) := by
  simp only [IsMark, Bool.or_eq_true, decide_eq_true_eq] at isMark
  rcases isMark with rfl | rfl
  · rfl
  · rfl

theorem value?_denotes {value : Toml.Value} {written : List Char} (denotes : Denotes value written)
    (stops : Stops IsMark rest) :
    Toml.value? Toml.depthLimit (written ++ rest) = some (value, rest) := by
  cases denotes with
  | yes => rfl
  | no => rfl
  | string quotes =>
      have read := string?_quoted quotes stops
      obtain ⟨mark, more, isMark, rfl⟩ := quotes_cons quotes
      rw [List.cons_append] at read ⊢
      rw [value?_quoted isMark, read, Option.map_some]
      simp only [String.ofList_toList]

/-! Lines with an item, and all lines of a file. -/

def Gives (item : Item) (statement : Toml.Statement) : Prop :=
  ∃ keySpan span, statement = .entry [⟨item.key, keySpan⟩] item.value span

theorem statement?_of_isKeyChar {c : Char} (named : Toml.isKeyChar c = true) (more : List Char) :
    Toml.statement? (c :: more) = Toml.entry? (c :: more) := by
  unfold Toml.statement?
  split
  · rename_i same
    exact absurd (List.cons.inj same).1 (ne_of_isKeyChar named rfl)
  · rfl

theorem lineEnd?_of_isKeyChar {c : Char} (named : Toml.isKeyChar c = true) (more : List Char) :
    Toml.lineEnd? (c :: more) = none := by
  have unblank : Toml.skipBlanks (c :: more) = c :: more :=
    skipBlanks_of_stops (by simpa [Stops] using isBlank_of_isKeyChar named)
  have uncommented : Toml.skipComment (c :: more) = c :: more := by
    unfold Toml.skipComment
    split
    · rename_i same
      exact absurd (List.cons.inj same).1 (ne_of_isKeyChar named rfl)
    · rfl
  rw [Toml.lineEnd?, unblank, uncommented]
  dsimp only
  unfold Toml.newline?
  split
  · rename_i same
    exact absurd (List.cons.inj same).1 (ne_of_isKeyChar named rfl)
  · rename_i same
    exact absurd (List.cons.inj same).1 (ne_of_isKeyChar named rfl)
  · rfl

theorem skipBlanks_entry {item : Item} {line : List Char} (entry : Entry item line)
    (after : List Char) :
    ∃ c more, Toml.skipBlanks (line ++ after) = c :: more ∧ Toml.isKeyChar c = true := by
  obtain ⟨c, name, written, named⟩ := item.key_cons
  cases entry with
  | mk indented _ _ _ _ =>
      simp only [List.append_assoc]
      rw [skipBlanks_append indented (item.stops_key _), written]
      exact ⟨c, _, rfl, named⟩

theorem entry?_entry {item : Item} {line after rest : List Char} (entry : Entry item line)
    (closes : Closes after rest) :
    ∃ statement more, Toml.entry? (Toml.skipBlanks (line ++ after)) = some (statement, more) ∧
      Gives item statement ∧ Toml.lineEnd? more = some rest := by
  cases entry with
  | mk indented before behind denotes passed =>
      rename_i indent equalsBefore equalsAfter value tail
      have tailStops : Stops IsMark (tail ++ after) :=
        (passed.stops rfl rfl rfl).append (closes.stops rfl rfl)
      obtain ⟨keySpan, named⟩ := keys?_bare item 78 before (equalsAfter ++ (value ++ (tail ++ after)))
      have unblank := skipBlanks_append behind (denotes.stops_append (tail ++ after))
      have read := value?_denotes denotes tailStops
      let span := Toml.Span.between (value ++ (tail ++ after)) (tail ++ after)
      refine ⟨_, _, ?_, ⟨keySpan, span, rfl⟩, lineEnd?_passed passed closes⟩
      simp only [List.append_assoc, List.cons_append]
      rw [skipBlanks_append indented (item.stops_key _), Toml.entry?]
      simp only [Toml.partLimit, named, Toml.expect?, unblank, read, Option.bind_eq_bind,
        Option.bind_some, ↓reduceIte]
      rfl

theorem statementsFrom_passed {text rest : List Char} (fuel : Nat)
    (ends : Toml.lineEnd? text = some rest) :
    Toml.statementsFrom (fuel + 2) text = Toml.statementsFrom (fuel + 1) rest := by
  have again : Toml.lineEnd? (Toml.skipBlanks text) = some rest := by
    rw [Toml.lineEnd?, Toml.skipBlanks, Toml.skipBlanks, List.dropWhile_idempotent]
    exact ends
  rw [Toml.statementsFrom]
  cases left : Toml.skipBlanks text with
  | nil =>
      rw [left] at again
      cases again
      rfl
  | cons c more =>
      rw [left] at again
      simp only [again]

theorem statementsFrom_entry {item : Item} {line after rest : List Char} (fuel : Nat)
    (entry : Entry item line) (closes : Closes after rest) :
    ∃ statement, Gives item statement ∧
      Toml.statementsFrom (fuel + 1) (line ++ after) =
        (Toml.statementsFrom fuel rest).map (statement :: ·) := by
  obtain ⟨c, left, start, named⟩ := skipBlanks_entry entry after
  obtain ⟨statement, more, read, gives, ends⟩ := entry?_entry entry closes
  rw [start] at read
  refine ⟨statement, gives, ?_⟩
  rw [Toml.statementsFrom, start]
  simp only [lineEnd?_of_isKeyChar named, statement?_of_isKeyChar named, read, ends,
    Option.bind_eq_bind, Option.bind_some]
  cases Toml.statementsFrom fuel rest with
  | none => rfl
  | some statements => rfl

theorem Entry.length_pos {item : Item} {line : List Char} (entry : Entry item line) :
    0 < line.length := by
  cases entry
  simp only [List.length_append, List.length_cons]
  omega

theorem LineEnd.length_pos {ending : List Char} (lineEnd : LineEnd ending) :
    0 < ending.length := by
  cases lineEnd <;> simp

theorem statementsFrom_lines {items : List Item} {text : List Char} (lines : Lines items text) :
    ∀ fuel, text.length < fuel →
      ∃ statements, Toml.statementsFrom fuel text = some statements ∧
        List.Forall₂ Gives items statements := by
  induction lines with
  | lastPassed passed =>
      intro fuel enough
      have ends := lineEnd?_passed passed .last
      rw [List.append_nil] at ends
      match fuel, enough with
      | 1, enough =>
          obtain rfl := List.length_eq_zero_iff.mp (Nat.lt_one_iff.mp enough)
          exact ⟨[], rfl, .nil⟩
      | fuel + 2, _ => exact ⟨[], statementsFrom_passed fuel ends, .nil⟩
  | lastEntry entry =>
      intro fuel enough
      have long := entry.length_pos
      obtain ⟨fuel, rfl⟩ : ∃ more, fuel = more + 2 := ⟨fuel - 2, by omega⟩
      obtain ⟨statement, gives, read⟩ := statementsFrom_entry (fuel + 1) entry .last
      rw [List.append_nil] at read
      exact ⟨[statement], read, .cons gives .nil⟩
  | passed passed ending _ ih =>
      intro fuel enough
      have long := ending.length_pos
      simp only [List.length_append] at enough
      obtain ⟨fuel, rfl⟩ : ∃ more, fuel = more + 2 := ⟨fuel - 2, by omega⟩
      obtain ⟨statements, read, gives⟩ := ih (fuel + 1) (by omega)
      exact ⟨statements, (statementsFrom_passed fuel
        (lineEnd?_passed passed (.line ending))).trans read, gives⟩
  | entry entry ending _ ih =>
      intro fuel enough
      have long := ending.length_pos
      simp only [List.length_append] at enough
      obtain ⟨fuel, rfl⟩ : ∃ more, fuel = more + 1 := ⟨fuel - 1, by omega⟩
      obtain ⟨statements, readMore, givesMore⟩ := ih fuel (by omega)
      obtain ⟨statement, gives, read⟩ := statementsFrom_entry fuel entry (.line ending)
      rw [readMore, Option.map_some] at read
      exact ⟨statement :: statements, read, .cons gives givesMore⟩

def IsByteOrderMark (c : Char) : Bool :=
  c = '\uFEFF'

theorem isByteOrderMark_of_isKeyChar {c : Char} (named : Toml.isKeyChar c = true) :
    IsByteOrderMark c = false := by
  simpa [IsByteOrderMark] using ne_of_isKeyChar named (d := '\uFEFF') rfl

theorem Entry.unmarked {item : Item} {line : List Char} (entry : Entry item line) :
    Stops IsByteOrderMark line := by
  obtain ⟨c, name, written, named⟩ := item.key_cons
  cases entry with
  | mk indented _ _ _ _ =>
      refine (indented.stops rfl rfl).append ?_
      rw [written]
      simpa [Stops] using isByteOrderMark_of_isKeyChar named

theorem Lines.unmarked {items : List Item} {text : List Char} (lines : Lines items text) :
    Stops IsByteOrderMark text := by
  have ends : ∀ {ending rest : List Char}, LineEnd ending → Stops IsByteOrderMark (ending ++ rest) :=
    fun ending => (Closes.line ending).stops rfl rfl
  cases lines with
  | lastPassed passed => exact passed.stops rfl rfl rfl
  | lastEntry entry => exact entry.unmarked
  | passed passed ending _ => exact (passed.stops rfl rfl rfl).append (ends ending)
  | entry entry ending _ => exact entry.unmarked.append (ends ending)

theorem dropByteOrderMark_of_stops {text : List Char} (stops : Stops IsByteOrderMark text) :
    Toml.dropByteOrderMark text = text := by
  unfold Toml.dropByteOrderMark
  split
  · exact absurd (stops '\uFEFF' (by simp)) (by decide)
  · rfl

theorem statements?_written {choice : Choice} {text : String} (written : choice.Written text) :
    ∃ items statements, items.Perm choice.items ∧
      Toml.statements? text.toList = some statements ∧ List.Forall₂ Gives items statements := by
  cases written with
  | unmarked order lines =>
      obtain ⟨statements, read, gives⟩ := statementsFrom_lines lines _ (Nat.lt_succ_self _)
      refine ⟨_, statements, order, ?_, gives⟩
      rw [Toml.statements?, dropByteOrderMark_of_stops lines.unmarked]
      exact read
  | marked order lines same =>
      rename_i behind
      have enough : behind.length < text.toList.length + 1 := by
        simp only [same, List.length_cons]
        omega
      obtain ⟨statements, read, gives⟩ := statementsFrom_lines lines _ enough
      refine ⟨_, statements, order, ?_, gives⟩
      rw [Toml.statements?, ← read, same]
      rfl

end RomCatalog.SettingsText
