import RomCatalog.Proofs.Problems

/-!
Identifiers that are derived from names. A name and its identifier are equally long and agree but
for the case of letters and for full stops, so two names have one identifier exactly if they agree
in that way with each other. An identifier is derived from itself, and with it what is reported.
-/

namespace RomCatalog

namespace Rom

theorem isLower_iff (c : Char) : c.isLower = true ↔ 97 ≤ c.toNat ∧ c.toNat ≤ 122 := by
  change (decide ('a'.val ≤ c.val) && decide (c.val ≤ 'z'.val)) = true ↔ _
  simp [UInt32.le_iff_toNat_le]

theorem toNat_toUpper (c : Char) :
    c.toUpper.toNat = if 97 ≤ c.toNat ∧ c.toNat ≤ 122 then c.toNat - 32 else c.toNat := by
  unfold Char.toUpper
  split
  · rename_i lower
    have bounds : 97 ≤ c.toNat ∧ c.toNat ≤ 122 := by
      simpa [UInt32.le_iff_toNat_le, ← Char.toNat_val] using lower
    rw [if_pos bounds, ← Char.toNat_val, UInt32.toNat_add, Char.toNat_val]
    -- as a word, 32 is taken away by adding its complement
    change (c.toNat + 4294967264) % 4294967296 = c.toNat - 32
    omega
  · rename_i notLower
    rw [if_neg]
    rintro ⟨low, high⟩
    exact notLower (by simpa [UInt32.le_iff_toNat_le, ← Char.toNat_val] using ⟨low, high⟩)

theorem toNat_identifierChar (c : Char) :
    (identifierChar c).toNat =
      if c.toNat = 46 then 95
      else if 97 ≤ c.toNat ∧ c.toNat ≤ 122 then c.toNat - 32
      else c.toNat := by
  have stop : c = '.' ↔ c.toNat = 46 := Char.toNat_inj.symm
  simp only [identifierChar, stop]
  split
  · rfl
  · exact toNat_toUpper c

theorem isLower_identifierChar (c : Char) : (identifierChar c).isLower = false := by
  rw [Bool.eq_false_iff, ne_eq, isLower_iff, toNat_identifierChar]
  split
  · omega
  · split <;> omega

theorem isLower_identifierOf (name : String) :
    ∀ c ∈ (identifierOf name).toList, c.isLower = false := by
  intro c member
  rw [identifierOf, String.toList_map] at member
  obtain ⟨source, _, rfl⟩ := List.mem_map.mp member
  exact isLower_identifierChar source

theorem length_identifierOf (name : String) : (identifierOf name).length = name.length := by
  simp [identifierOf]

/-! Characters that an identifier does not tell apart. -/

def IsCapitalOf (capital small : Char) : Prop :=
  'A' ≤ capital ∧ capital ≤ 'Z' ∧ small.toNat = capital.toNat + 32

inductive Akin : Char → Char → Prop
  | same (c : Char) : Akin c c
  | capital {a b : Char} : IsCapitalOf a b → Akin a b
  | small {a b : Char} : IsCapitalOf b a → Akin a b
  | mark {a b : Char} : a = '.' ∨ a = '_' → b = '.' ∨ b = '_' → Akin a b

theorem isCapitalOf_iff (a b : Char) :
    IsCapitalOf a b ↔ 65 ≤ a.toNat ∧ a.toNat ≤ 90 ∧ b.toNat = a.toNat + 32 := by
  simp [IsCapitalOf, Char.le_def, UInt32.le_iff_toNat_le]

theorem isMark_iff (c : Char) : c = '.' ∨ c = '_' ↔ c.toNat = 46 ∨ c.toNat = 95 := by
  rw [← Char.toNat_inj, ← Char.toNat_inj (d := '_')]
  rfl

theorem akin_iff (a b : Char) :
    Akin a b ↔ a = b ∨ IsCapitalOf a b ∨ IsCapitalOf b a ∨
      (a = '.' ∨ a = '_') ∧ (b = '.' ∨ b = '_') := by
  constructor
  · intro akin
    cases akin with
    | same => exact .inl rfl
    | capital letters => exact .inr (.inl letters)
    | small letters => exact .inr (.inr (.inl letters))
    | mark first second => exact .inr (.inr (.inr ⟨first, second⟩))
  · rintro (rfl | letters | letters | ⟨first, second⟩)
    · exact .same a
    · exact .capital letters
    · exact .small letters
    · exact .mark first second

theorem identifierChar_eq_iff (a b : Char) : identifierChar a = identifierChar b ↔ Akin a b := by
  rw [akin_iff, isCapitalOf_iff, isCapitalOf_iff, isMark_iff, isMark_iff, ← Char.toNat_inj,
    ← Char.toNat_inj, toNat_identifierChar, toNat_identifierChar]
  split_ifs <;> omega

theorem identifierOf_eq_iff (left right : String) :
    identifierOf left = identifierOf right ↔ List.Forall₂ Akin left.toList right.toList := by
  rw [← String.toList_inj, identifierOf, identifierOf, String.toList_map, String.toList_map,
    ← List.forall₂_eq_eq_eq, List.forall₂_map_left_iff, List.forall₂_map_right_iff]
  simp only [identifierChar_eq_iff]

theorem identifierChar_identifierChar (c : Char) :
    identifierChar (identifierChar c) = identifierChar c := by
  rw [← Char.toNat_inj, toNat_identifierChar (identifierChar c), toNat_identifierChar]
  split_ifs <;> omega

theorem identifierOf_identifierOf (name : String) :
    identifierOf (identifierOf name) = identifierOf name := by
  rw [← String.toList_inj]
  simp only [identifierOf, String.toList_map, List.map_map]
  exact List.map_congr_left fun c _ => identifierChar_identifierChar c

/-- The characters of names whose identifiers will compile. -/
def IsPlainChar (c : Char) : Prop :=
  ('A' ≤ c ∧ c ≤ 'Z') ∨ ('a' ≤ c ∧ c ≤ 'z') ∨ ('0' ≤ c ∧ c ≤ '9') ∨ c = '.' ∨ c = '_'

theorem isIdentifierChar_identifierChar (c : Char) :
    isIdentifierChar (identifierChar c) = true ↔ IsPlainChar c := by
  rw [isIdentifierChar_iff, IsAllowedChar, IsPlainChar, isMark_iff, ← Char.toNat_inj]
  simp only [Char.le_def, UInt32.le_iff_toNat_le, Char.toNat_val, toNat_identifierChar,
    Char.reduceToNat]
  split_ifs <;> omega

end Rom

/-! What is reported about each place of a list. -/

def Problem.of (rom : Rom) : Problem.Kind → Problem
  | .invalid => .invalid rom
  | .repeated => .repeated rom

namespace Rom

/-- What the ROM at a place adds to the report on the ROMs before it. -/
def flags (roms : List Rom) (place : Nat) : List Problem.Kind :=
  ((problems (roms.take (place + 1))).drop (problems (roms.take place)).length).map Problem.kind

def flagsOf (identifiers : List String) (place : Nat) : List Problem.Kind :=
  match identifiers[place]? with
  | none => []
  | some identifier =>
      (if identifier.toList.all isIdentifierChar then [] else [.invalid]) ++
        (if identifier ∈ identifiers.take place then [.repeated] else [])

theorem problemsAfter_append (seen : List String) (before after : List Rom) :
    problemsAfter seen (before ++ after) = problemsAfter seen before ++
      problemsAfter ((before.map Rom.identifier).reverse ++ seen) after := by
  induction before generalizing seen with
  | nil => rfl
  | cons rom rest ih =>
      simp [problemsAfter, ih]

theorem flags_eq (roms : List Rom) (place : Nat) :
    flags roms place = flagsOf (roms.map Rom.identifier) place := by
  rw [flags, flagsOf, List.take_add_one, List.getElem?_map, ← List.map_take]
  cases roms[place]? with
  | none => simp
  | some rom =>
      rw [Option.toList_some, problems, problems, problemsAfter_append, List.drop_left]
      simp [problemsAfter, hasValidIdentifier, apply_ite (List.map Problem.kind), Problem.kind]

theorem flags_congr {roms others : List Rom}
    (same : roms.map Rom.identifier = others.map Rom.identifier) (place : Nat) :
    flags roms place = flags others place := by
  rw [flags_eq, flags_eq, same]

theorem map_of_flags {roms : List Rom} {rom : Rom} {place : Nat}
    (found : roms[place]? = some rom) :
    (flags roms place).map (Problem.of rom) = problemsAt roms (rom, place) := by
  have earlier : (∃ other ∈ roms.take place, other.identifier = rom.identifier) ↔
      rom.identifier ∈ (roms.map Rom.identifier).take place := by
    rw [← List.map_take, List.mem_map]
  simp [flags_eq, flagsOf, found, problemsAt, earlier, ← hasValidIdentifier_iff,
    hasValidIdentifier, apply_ite (List.map (Problem.of rom)), Problem.of]

theorem problems_eq_flatMap (roms : List Rom) :
    problems roms =
      roms.zipIdx.flatMap fun entry => (flags roms entry.2).map (Problem.of entry.1) := by
  have reported := problemsAfter_eq_flatMap [] [] roms (by simp)
  rw [problems, reported]
  apply List.flatMap_congr
  intro entry member
  exact (map_of_flags (List.mem_zipIdx_iff_getElem?.mp member)).symm

theorem flagsOf_sublist (identifiers : List String) (place : Nat) :
    (flagsOf identifiers place).Sublist [.invalid, .repeated] := by
  unfold flagsOf
  split
  · exact List.nil_sublist _
  · have both : [Problem.Kind.invalid, .repeated] = [.invalid] ++ [.repeated] := rfl
    rw [both]
    apply List.Sublist.append
    · split <;> simp
    · split <;> simp

theorem invalid_mem_flagsOf_iff {identifiers : List String} {identifier : String} {place : Nat}
    (found : identifiers[place]? = some identifier) :
    .invalid ∈ flagsOf identifiers place ↔ ∃ c ∈ identifier.toList, isIdentifierChar c = false := by
  have repeatedOnly : .invalid ∉
      if identifier ∈ identifiers.take place then [Problem.Kind.repeated] else [] := by
    split <;> simp
  simp [flagsOf, found, repeatedOnly]

theorem repeated_mem_flagsOf_iff {identifiers : List String} {identifier : String} {place : Nat}
    (found : identifiers[place]? = some identifier) :
    .repeated ∈ flagsOf identifiers place ↔ identifier ∈ identifiers.take place := by
  simp [flagsOf, found]

theorem map_identifier_ofName (names : List String) :
    (names.map ofName).map Rom.identifier = names.map identifierOf := by
  rw [List.map_map]
  rfl

section

variable {names : List String} {name : String} {place : Nat}

theorem invalid_mem_flags_iff (found : names[place]? = some name) :
    .invalid ∈ flags (names.map ofName) place ↔ ∃ c ∈ name.toList, ¬IsPlainChar c := by
  have derived : (names.map identifierOf)[place]? = some (identifierOf name) := by
    rw [List.getElem?_map, found, Option.map_some]
  rw [flags_eq, map_identifier_ofName, invalid_mem_flagsOf_iff derived]
  simp only [identifierOf, String.toList_map, List.mem_map, exists_exists_and_eq_and,
    ← isIdentifierChar_identifierChar, Bool.not_eq_true]

theorem repeated_mem_flags_iff (found : names[place]? = some name) :
    .repeated ∈ flags (names.map ofName) place ↔
      ∃ earlier ∈ names.take place, List.Forall₂ Akin earlier.toList name.toList := by
  have derived : (names.map identifierOf)[place]? = some (identifierOf name) := by
    rw [List.getElem?_map, found, Option.map_some]
  rw [flags_eq, map_identifier_ofName, repeated_mem_flagsOf_iff derived, ← List.map_take,
    List.mem_map]
  simp only [identifierOf_eq_iff]

end

/-- What is reported about names can be seen in them: a character that is not plain, or an earlier
name that differs at most in the case of letters and in full stops for underscores. Identifiers that
are derived once more stay as they are, and so does what is reported at each place. -/
theorem derived_report :
    (∀ names : List String,
      let roms := names.map ofName
      problems roms =
        roms.zipIdx.flatMap (fun entry => (flags roms entry.2).map (Problem.of entry.1)) ∧
      ∀ place name, names[place]? = some name →
        (flags roms place).Sublist [.invalid, .repeated] ∧
        (.invalid ∈ flags roms place ↔ ∃ c ∈ name.toList, ¬IsPlainChar c) ∧
        (.repeated ∈ flags roms place ↔
          ∃ earlier ∈ names.take place, List.Forall₂ Akin earlier.toList name.toList)) ∧
    ∀ names : List String,
      let roms := names.map ofName
      let again := roms.map fun rom => ofName rom.identifier
      again.map Rom.identifier = roms.map Rom.identifier ∧
        ∀ place, flags again place = flags roms place := by
  refine ⟨?_, ?_⟩
  · intro names roms
    refine ⟨problems_eq_flatMap roms, ?_⟩
    intro place name found
    refine ⟨?_, invalid_mem_flags_iff found, repeated_mem_flags_iff found⟩
    rw [flags_eq]
    exact flagsOf_sublist _ place
  · intro names roms again
    have same : again.map Rom.identifier = roms.map Rom.identifier := by
      simp [again, roms, ofName, identifierOf_identifierOf]
    exact ⟨same, flags_congr same⟩

def streets : List String :=
  ["a.b", "Straße", "A_B", "STRAẞE", "STRAßE"]

theorem derived_report_streets :
    streets[2]? = some "A_B" ∧ streets[3]? = some "STRAẞE" ∧ streets[4]? = some "STRAßE" ∧
      flags (streets.map ofName) 2 = [.repeated] ∧
      flags (streets.map ofName) 3 = [.invalid] ∧
      flags (streets.map ofName) 4 = [.invalid, .repeated] ∧
      (∃ c ∈ "STRAßE".toList, ¬IsPlainChar c) ∧
      (∃ earlier ∈ streets.take 4, List.Forall₂ Akin earlier.toList "STRAßE".toList) ∧
      ¬∃ earlier ∈ streets.take 3, List.Forall₂ Akin earlier.toList "STRAẞE".toList := by
  have identifiers : streets.map identifierOf = ["A_B", "STRAßE", "A_B", "STRAẞE", "STRAßE"] := by
    decide +kernel
  have derived (place : Nat) : flags (streets.map ofName) place =
      flagsOf ["A_B", "STRAßE", "A_B", "STRAẞE", "STRAßE"] place := by
    rw [flags_eq, map_identifier_ofName, identifiers]
  have second : flags (streets.map ofName) 2 = [.repeated] := (derived 2).trans (by decide)
  have third : flags (streets.map ofName) 3 = [.invalid] := (derived 3).trans (by decide)
  have fourth : flags (streets.map ofName) 4 = [.invalid, .repeated] :=
    (derived 4).trans (by decide)
  have reported := (derived_report.1 streets).2
  have invalid := (reported 4 "STRAßE" rfl).2.1
  have repeated := (reported 4 "STRAßE" rfl).2.2
  have unrepeated := (reported 3 "STRAẞE" rfl).2.2
  rw [fourth] at invalid repeated
  rw [third] at unrepeated
  refine ⟨rfl, rfl, rfl, second, third, fourth, ?_, ?_, ?_⟩
  · exact invalid.mp (by simp)
  · exact repeated.mp (by simp)
  · exact fun akin => absurd (unrepeated.mpr akin) (by simp)

end Rom

end RomCatalog
