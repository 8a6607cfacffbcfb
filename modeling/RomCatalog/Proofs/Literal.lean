import Mathlib.Algebra.Group.Nat.Defs
import RomCatalog.Proofs.Utf8
import RomCatalog.Text.Quoted
import RomCatalog.Toml.Strings

/-!
String literals of the generated code, read by rules that know nothing of how they were written:
a literal runs from a quotation mark to the next one that is not part of an escape, an escape is a
backslash with a letter or with a hexadecimal number in braces, and every other character stands
for itself. What quoting writes is one such literal whatever follows it, and shows no controls.
-/

namespace RomCatalog.Literal

def escape? (c : Char) : Option Char :=
  if c = '\\' then some '\\'
  else if c = '"' then some '"'
  else if c = '\'' then some '\''
  else if c = '0' then some '\x00'
  else if c = 't' then some '\t'
  else if c = 'n' then some '\n'
  else if c = 'r' then some '\r'
  else none

/-- The part of an escape that has been read: its backslash, the letter before a brace, or some of
the digits in the braces and the number they make. -/
inductive Escape where
  | backslash
  | opening
  | digits (count value : Nat)

def Escape.step? : Escape → Char → Option (Char ⊕ Escape)
  | .backslash, c =>
      if c = 'u' then some (.inr .opening) else (escape? c).map .inl
  | .opening, c =>
      if c = '\x7b' then some (.inr (.digits 0 0)) else none
  | .digits count value, c =>
      if c = '\x7d' then
        if count = 0 then none else (Toml.scalar? value).map .inl
      else
        (Toml.hexValue? c).bind fun digit =>
          if count < 6 then some (.inr (.digits (count + 1) (value * 16 + digit))) else none

/-- The rest of a literal after its opening mark. A carriage return cannot stand for itself. -/
def readFrom : Option Escape → Toml.Reader (List Char)
  | _, [] => none
  | none, c :: rest =>
      if c = '"' then some ([], rest)
      else if c = '\\' then readFrom (some .backslash) rest
      else if c = '\r' then none
      else Toml.prepend c (readFrom none rest)
  | some escape, c :: rest =>
      match escape.step? c with
      | some (.inl meant) => Toml.prepend meant (readFrom none rest)
      | some (.inr more) => readFrom (some more) rest
      | none => none

def read? : Toml.Reader (List Char)
  | '"' :: rest => readFrom none rest
  | _ => none

def value? (source : String) : Option String :=
  match read? source.toList with
  | some (meant, []) => some (String.ofList meant)
  | _ => none

theorem hexValue?_digitChar : ∀ digit < 16, Toml.hexValue? (Nat.digitChar digit) = some digit := by
  decide

theorem digitChar_ne_brace : ∀ digit < 16, Nat.digitChar digit ≠ '\x7d' := by
  decide

theorem readFrom_digit (count value digit : Nat) (rest : List Char) (small : digit < 16)
    (room : count < 6) :
    readFrom (some (.digits count value)) (digit.digitChar :: rest) =
      readFrom (some (.digits (count + 1) (value * 16 + digit))) rest := by
  simp only [readFrom, Escape.step?, digitChar_ne_brace digit small, if_false,
    hexValue?_digitChar digit small, Option.bind_some, room, if_true]

theorem readFrom_hexDigits (digits n : Nat) (rest : List Char) (fits : n < 16 ^ (digits + 1))
    (room : digits < 6) :
    ∃ count, 0 < count ∧ count ≤ digits + 1 ∧
      readFrom (some (.digits 0 0)) (Text.hexDigits (digits + 1) n ++ rest) =
        readFrom (some (.digits count n)) rest := by
  induction digits generalizing n rest with
  | zero =>
      have small : n < 16 := by simpa using fits
      refine ⟨1, by omega, by omega, ?_⟩
      simp only [Text.hexDigits, small, if_true, List.cons_append, List.nil_append]
      rw [readFrom_digit 0 0 n rest small (by omega)]
      simp
  | succ digits ih =>
      rw [Text.hexDigits]
      split
      · rename_i small
        refine ⟨1, by omega, by omega, ?_⟩
        simp only [List.cons_append, List.nil_append]
        rw [readFrom_digit 0 0 n rest small (by omega)]
        simp
      · have fewer : n / 16 < 16 ^ (digits + 1) := by
          rw [Nat.pow_succ] at fits
          omega
        obtain ⟨count, positive, bound, read⟩ :=
          ih (n / 16) ((n % 16).digitChar :: rest) fewer (by omega)
        refine ⟨count + 1, by omega, by omega, ?_⟩
        rw [List.append_assoc, List.singleton_append, read,
          readFrom_digit count (n / 16) (n % 16) rest (by omega) (by omega)]
        have whole : n / 16 * 16 + n % 16 = n := by omega
        rw [whole]

theorem readFrom_braced (c : Char) (rest : List Char) :
    readFrom none (Text.braced c ++ rest) = Toml.prepend c (readFrom none rest) := by
  have fits : c.toNat < 16 ^ (5 + 1) := Nat.lt_trans (Utf8.toNat_lt c) (by decide)
  obtain ⟨count, positive, _, read⟩ :=
    readFrom_hexDigits 5 c.toNat ('\x7d' :: rest) fits (by omega)
  have nonzero : count ≠ 0 := by omega
  have opened : readFrom none (Text.braced c ++ rest) =
      readFrom (some (.digits 0 0)) (Text.hexDigits 6 c.toNat ++ '\x7d' :: rest) := by
    simp [Text.braced, readFrom, Escape.step?]
  rw [opened, read]
  simp [readFrom, Escape.step?, nonzero, Toml.scalar?_toNat]

theorem readFrom_escape {letter meant : Char} (known : escape? letter = some meant)
    (rest : List Char) :
    readFrom none ('\\' :: letter :: rest) = Toml.prepend meant (readFrom none rest) := by
  have notNumber : letter ≠ 'u' := by
    intro same
    subst same
    simp [escape?] at known
  simp [readFrom, Escape.step?, notNumber, known]

def isVisible (c : Char) : Bool :=
  0x20 ≤ c.toNat && c.toNat ≠ 0x7f

theorem quoteChar_cases (c : Char) :
    (∃ letter, escape? letter = some c ∧ isVisible letter = true ∧
      Text.quoteChar c = ['\\', letter]) ∨
    Text.quoteChar c = Text.braced c ∨
    (Text.isPrintable c = true ∧ c ≠ '"' ∧ c ≠ '\\' ∧ c ≠ '\r' ∧ Text.quoteChar c = [c]) := by
  unfold Text.quoteChar
  split
  · subst c
    exact Or.inl ⟨'0', rfl, rfl, rfl⟩
  split
  · subst c
    exact Or.inl ⟨'t', rfl, rfl, rfl⟩
  split
  · subst c
    exact Or.inl ⟨'r', rfl, rfl, rfl⟩
  split
  · subst c
    exact Or.inl ⟨'n', rfl, rfl, rfl⟩
  split
  · subst c
    exact Or.inl ⟨'\\', rfl, rfl, rfl⟩
  split
  · subst c
    exact Or.inl ⟨'"', rfl, rfl, rfl⟩
  split
  · exact Or.inr (Or.inl rfl)
  split
  · rename_i notReturn _ notBackslash notMark _ printable
    exact Or.inr (Or.inr ⟨printable, notMark, notBackslash, notReturn, rfl⟩)
  · exact Or.inr (Or.inl rfl)

theorem readFrom_quoteChar (c : Char) (rest : List Char) :
    readFrom none (Text.quoteChar c ++ rest) = Toml.prepend c (readFrom none rest) := by
  rcases quoteChar_cases c with ⟨letter, known, _, written⟩ | written |
    ⟨_, notMark, notBackslash, notReturn, written⟩
  · rw [written]
    exact readFrom_escape known rest
  · rw [written]
    exact readFrom_braced c rest
  · rw [written]
    simp [readFrom, notMark, notBackslash, notReturn]

theorem readFrom_quoted (text rest : List Char) :
    readFrom none (text.flatMap Text.quoteChar ++ '"' :: rest) = some (text, rest) := by
  induction text with
  | nil => simp [readFrom]
  | cons c text ih =>
      rw [List.flatMap_cons, List.append_assoc, readFrom_quoteChar, ih]
      rfl

theorem read?_quote (text : String) (rest : List Char) :
    read? ((Text.quote text).toList ++ rest) = some (text.toList, rest) := by
  simp [Text.quote, read?, readFrom_quoted]

theorem value?_quote (text : String) : value? (Text.quote text) = some text := by
  have read := read?_quote text []
  rw [List.append_nil] at read
  simp [value?, read]

/-! Nothing that quoting writes is a control, so a literal stays on its line. -/

theorem isVisible_of_isPrintable {c : Char} (printable : Text.isPrintable c = true) :
    isVisible c = true := by
  have above : ¬ c.toNat < 0x20 := by
    intro below
    simp [Text.isPrintable, below] at printable
  have notDelete : c.toNat ≠ 0x7f := by
    intro same
    have delete : c = '\x7f' := Char.toNat_inj.mp same
    subst delete
    exact absurd printable (by decide)
  simp only [isVisible, Bool.and_eq_true, decide_eq_true_eq]
  exact ⟨by omega, by simpa using notDelete⟩

theorem isVisible_digitChar : ∀ digit < 16, isVisible (Nat.digitChar digit) = true := by
  decide

theorem isVisible_hexDigits (digits n : Nat) :
    ∀ c ∈ Text.hexDigits digits n, isVisible c = true := by
  induction digits generalizing n with
  | zero => simp [Text.hexDigits]
  | succ digits ih =>
      intro c member
      rw [Text.hexDigits] at member
      split at member
      · rename_i small
        rw [List.mem_singleton] at member
        subst member
        exact isVisible_digitChar n small
      · rw [List.mem_append, List.mem_singleton] at member
        rcases member with earlier | last
        · exact ih (n / 16) c earlier
        · subst last
          exact isVisible_digitChar (n % 16) (by omega)

theorem isVisible_braced (c : Char) : ∀ d ∈ Text.braced c, isVisible d = true := by
  intro d member
  simp only [Text.braced, List.mem_append, List.mem_cons, List.not_mem_nil, or_false] at member
  rcases member with ((rfl | rfl | rfl) | digit) | rfl
  · decide
  · decide
  · decide
  · exact isVisible_hexDigits 6 c.toNat d digit
  · decide

theorem isVisible_quoteChar (c : Char) : ∀ d ∈ Text.quoteChar c, isVisible d = true := by
  intro d member
  rcases quoteChar_cases c with ⟨letter, _, visible, written⟩ | written |
    ⟨printable, _, _, _, written⟩
  · rw [written, List.mem_cons, List.mem_singleton] at member
    rcases member with rfl | rfl
    · decide
    · exact visible
  · rw [written] at member
    exact isVisible_braced c d member
  · rw [written, List.mem_singleton] at member
    subst member
    exact isVisible_of_isPrintable printable

theorem isVisible_quote (text : String) : ∀ c ∈ (Text.quote text).toList, isVisible c = true := by
  intro c member
  simp only [Text.quote, String.toList_ofList, List.mem_append, List.mem_cons, List.mem_flatMap,
    List.not_mem_nil, or_false] at member
  rcases member with (rfl | ⟨source, _, written⟩) | rfl
  · decide
  · exact isVisible_quoteChar source c written
  · decide

end RomCatalog.Literal
