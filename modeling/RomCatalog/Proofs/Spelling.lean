import Mathlib.Tactic.Ring
import RomCatalog.Proofs.Utf8
import RomCatalog.Toml.Strings

/-!
Strings as a TOML text spells them, by rules that know nothing of how they are read. In a basic
string a character may stand for itself or be escaped, shortly or by its number; in a literal
string every character stands for itself. Each spelling is read as the string that was meant,
whatever follows it.
-/

namespace RomCatalog.Spelling

def IsControl (c : Char) : Prop :=
  c.toNat < 0x20 ∨ c.toNat = 0x7f

def IsPlain (c : Char) : Prop :=
  c = '\t' ∨ ¬IsControl c

instance (c : Char) : Decidable (IsControl c) :=
  inferInstanceAs (Decidable (c.toNat < 0x20 ∨ c.toNat = 0x7f))

instance (c : Char) : Decidable (IsPlain c) :=
  inferInstanceAs (Decidable (c = '\t' ∨ ¬IsControl c))

def AllPlain (text : List Char) : Prop :=
  ∀ c ∈ text, IsPlain c

instance (text : List Char) : Decidable (AllPlain text) :=
  List.decidableBAll IsPlain text

def shortEscapes : List (Char × Char) :=
  [('\x08', 'b'), ('\t', 't'), ('\n', 'n'), ('\x0c', 'f'), ('\r', 'r'), ('"', '"'), ('\\', '\\')]

def hexDigit (capital : Bool) (n : Nat) : Char :=
  if capital then n.digitChar.toUpper else n.digitChar

/-- The last digits of a number in base sixteen, as many as there are choices of capital or small
letters for them. -/
def hexNumber : List Bool → Nat → List Char
  | [], _ => []
  | capital :: rest, n => hexDigit capital (n / 16 ^ rest.length % 16) :: hexNumber rest n

inductive Spells (c : Char) : List Char → Prop
  | plain : IsPlain c → c ≠ '"' → c ≠ '\\' → Spells c [c]
  | letter {letter : Char} : (c, letter) ∈ shortEscapes → Spells c ['\\', letter]
  | short {capitals : List Bool} : capitals.length = 4 → c.toNat < 16 ^ 4 →
      Spells c ('\\' :: 'u' :: hexNumber capitals c.toNat)
  | long {capitals : List Bool} : capitals.length = 8 →
      Spells c ('\\' :: 'U' :: hexNumber capitals c.toNat)

inductive SpellsAll : List Char → List Char → Prop
  | nil : SpellsAll [] []
  | cons {c : Char} {text spelled written : List Char} : Spells c spelled →
      SpellsAll text written → SpellsAll (c :: text) (spelled ++ written)

inductive Quotes (text : List Char) : List Char → Prop
  | basic {written : List Char} : SpellsAll text written → Quotes text ('"' :: (written ++ ['"']))
  | literal : AllPlain text → '\'' ∉ text → Quotes text ('\'' :: (text ++ ['\'']))

theorem exists_spellsAll (text : List Char) : ∃ written, SpellsAll text written := by
  induction text with
  | nil => exact ⟨[], .nil⟩
  | cons c text ih =>
      obtain ⟨written, spells⟩ := ih
      exact ⟨_, .cons (.long (List.length_replicate (n := 8) (a := false))) spells⟩

theorem isPlain_iff (c : Char) : Toml.isPlain c = true ↔ IsPlain c := by
  simp only [Toml.isPlain, IsPlain, IsControl, Bool.or_eq_true, Bool.and_eq_true, decide_eq_true_eq]
  constructor
  · rintro (rfl | ⟨above, other⟩)
    · exact .inl rfl
    · refine .inr ?_
      have notDelete : c.toNat ≠ 0x7f := by simpa using other
      omega
  · rintro (rfl | plain)
    · exact .inl rfl
    · refine .inr ⟨by omega, ?_⟩
      have notDelete : c.toNat ≠ 0x7f := by omega
      simpa using notDelete

theorem hexValue?_hexDigit : ∀ capital, ∀ n < 16, Toml.hexValue? (hexDigit capital n) = some n := by
  decide

theorem escape?_of_mem : ∀ pair ∈ shortEscapes,
    Toml.escape? pair.2 = some pair.1 ∧ pair.2 ≠ 'u' ∧ pair.2 ≠ 'U' := by
  decide

theorem basicFrom_letter {c letter : Char} (known : (c, letter) ∈ shortEscapes)
    (rest : List Char) :
    Toml.basicFrom none ('\\' :: letter :: rest) = Toml.prepend c (Toml.basicFrom none rest) := by
  obtain ⟨meant, notShort, notLong⟩ := escape?_of_mem (c, letter) known
  dsimp only at meant notShort notLong
  simp [Toml.basicFrom, Toml.Escape.step?, notShort, notLong, meant]

theorem basicFrom_lastDigit {c : Char} {value n : Nat} (small : n < 16)
    (whole : value * 16 + n = c.toNat) (capital : Bool) (rest : List Char) :
    Toml.basicFrom (some (.number 1 value)) (hexDigit capital n :: rest) =
      Toml.prepend c (Toml.basicFrom none rest) := by
  simp [Toml.basicFrom, Toml.Escape.step?, hexValue?_hexDigit capital n small, whole,
    Toml.scalar?_toNat]

theorem basicFrom_nextDigit (missing : Nat) {value n : Nat} (small : n < 16) (capital : Bool)
    (rest : List Char) :
    Toml.basicFrom (some (.number (missing + 2) value)) (hexDigit capital n :: rest) =
      Toml.basicFrom (some (.number (missing + 1) (value * 16 + n))) rest := by
  have notLast : ¬missing + 2 ≤ 1 := by omega
  simp [Toml.basicFrom, Toml.Escape.step?, hexValue?_hexDigit capital n small]

theorem basicFrom_hexNumber {c : Char} (missing : Nat) {capitals : List Bool}
    (length : capitals.length = missing + 1) {value n : Nat}
    (whole : value * 16 ^ (missing + 1) + n % 16 ^ (missing + 1) = c.toNat) (rest : List Char) :
    Toml.basicFrom (some (.number (missing + 1) value)) (hexNumber capitals n ++ rest) =
      Toml.prepend c (Toml.basicFrom none rest) := by
  -- the digits still to come complete the number that the digits before them began
  induction missing generalizing value capitals with
  | zero =>
      obtain ⟨capital, rfl⟩ := List.length_eq_one_iff.mp length
      simp only [hexNumber, List.length_nil, Nat.pow_zero, Nat.div_one, List.cons_append,
        List.nil_append]
      exact basicFrom_lastDigit (Nat.mod_lt _ (by omega)) (by simpa using whole) capital rest
  | succ missing ih =>
      cases capitals with
      | nil => simp at length
      | cons capital capitals =>
          have fewer : capitals.length = missing + 1 := by simpa using length
          rw [hexNumber, fewer, List.cons_append,
            basicFrom_nextDigit missing (Nat.mod_lt _ (by omega))]
          have digits : n % 16 ^ (missing + 1 + 1) = n % 16 ^ (missing + 1) +
              16 ^ (missing + 1) * (n / 16 ^ (missing + 1) % 16) := Nat.mod_pow_succ
          have weight : 16 ^ (missing + 1 + 1) = 16 ^ (missing + 1) * 16 := Nat.pow_succ _ _
          rw [digits, weight] at whole
          refine ih fewer ?_
          rw [← whole]
          ring

theorem basicFrom_number {c : Char} (missing : Nat) {capitals : List Bool}
    (length : capitals.length = missing + 1) (fits : c.toNat < 16 ^ (missing + 1))
    (rest : List Char) :
    Toml.basicFrom (some (.number (missing + 1) 0)) (hexNumber capitals c.toNat ++ rest) =
      Toml.prepend c (Toml.basicFrom none rest) := by
  refine basicFrom_hexNumber missing length ?_ rest
  rw [Nat.mod_eq_of_lt fits, Nat.zero_mul, Nat.zero_add]

theorem basicFrom_spelled {c : Char} {spelled : List Char} (spells : Spells c spelled)
    (rest : List Char) :
    Toml.basicFrom none (spelled ++ rest) = Toml.prepend c (Toml.basicFrom none rest) := by
  cases spells with
  | plain isPlain notMark notBackslash =>
      have plain := (isPlain_iff c).mpr isPlain
      simp [Toml.basicFrom, notMark, notBackslash, plain]
  | letter known => exact basicFrom_letter known rest
  | short length fits =>
      rw [← basicFrom_number 3 length fits rest]
      simp [Toml.basicFrom, Toml.Escape.step?]
  | long length =>
      have fits : c.toNat < 16 ^ 8 := Nat.lt_trans (Utf8.toNat_lt c) (by decide)
      rw [← basicFrom_number 7 length fits rest]
      simp [Toml.basicFrom, Toml.Escape.step?]

theorem basicFrom_spelledAll {text written : List Char} (spells : SpellsAll text written)
    (rest : List Char) :
    Toml.basicFrom none (written ++ '"' :: rest) = some (text, rest) := by
  induction spells with
  | nil => simp [Toml.basicFrom]
  | cons spelled _ ih =>
      rw [List.append_assoc, basicFrom_spelled spelled, ih]
      rfl

theorem literal?_plain {text : List Char} (plain : AllPlain text) (unmarked : '\'' ∉ text)
    (rest : List Char) : Toml.literal? (text ++ '\'' :: rest) = some (text, rest) := by
  induction text with
  | nil => simp [Toml.literal?]
  | cons c text ih =>
      rw [AllPlain, List.forall_mem_cons] at plain
      rw [List.mem_cons, not_or] at unmarked
      have isPlain := (isPlain_iff c).mpr plain.1
      have notMark : c ≠ '\'' := Ne.symm unmarked.1
      rw [List.cons_append, Toml.literal?, if_neg notMark, if_pos isPlain, ih plain.2 unmarked.2]
      rfl

theorem lineString?_quoted {text quoted : List Char} (quotes : Quotes text quoted)
    (rest : List Char) : Toml.lineString? (quoted ++ rest) = some (text, rest) := by
  cases quotes with
  | basic spells =>
      simp only [List.cons_append, List.append_assoc, List.nil_append, Toml.lineString?]
      exact basicFrom_spelledAll spells rest
  | literal plain unmarked =>
      simp only [List.cons_append, List.append_assoc, List.nil_append, Toml.lineString?]
      exact literal?_plain plain unmarked rest

end RomCatalog.Spelling
