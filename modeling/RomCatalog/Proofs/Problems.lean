import Mathlib.Data.Finset.Card
import Mathlib.Data.List.Nodup
import RomCatalog.Rom.Problem

/-!
What the reported problems say about a list of ROMs. While the list is gone through, the
identifiers of the ROMs before are at hand, so each statement is first about the rest of a list
after some identifiers. Which of the ROMs with one identifier are reported depends on their order,
but how many are reported does not.
-/

namespace RomCatalog

namespace Rom

theorem problemsAfter_eq_nil_iff (seen : List String) (roms : List Rom) :
    problemsAfter seen roms = [] ↔
      (∀ rom ∈ roms, rom.hasValidIdentifier = true) ∧
      (roms.map Rom.identifier).Nodup ∧
      ∀ rom ∈ roms, rom.identifier ∉ seen := by
  induction roms generalizing seen with
  | nil => simp [problemsAfter]
  | cons rom rest ih =>
      simp only [problemsAfter, List.append_eq_nil_iff, ite_eq_left_iff, ite_eq_right_iff,
        List.cons_ne_nil, imp_false, Bool.not_eq_true, Bool.not_eq_false, ih, List.map_cons,
        List.nodup_cons, List.forall_mem_cons]
      constructor
      · rintro ⟨⟨valid, fresh⟩, allValid, distinct, apart⟩
        refine ⟨⟨valid, allValid⟩, ⟨?_, distinct⟩, fresh, fun other member later =>
          apart other member (List.mem_cons_of_mem _ later)⟩
        intro repeated
        obtain ⟨other, member, same⟩ := List.mem_map.mp repeated
        exact apart other member (by simp [same])
      · rintro ⟨⟨valid, allValid⟩, ⟨first, distinct⟩, fresh, apart⟩
        refine ⟨⟨valid, fresh⟩, allValid, distinct, fun other member repeated => ?_⟩
        rcases List.mem_cons.mp repeated with same | earlier
        · exact first (List.mem_map.mpr ⟨other, member, same⟩)
        · exact apart other member earlier

theorem problems_eq_nil_iff (roms : List Rom) :
    problems roms = [] ↔
      (∀ rom ∈ roms, rom.hasValidIdentifier = true) ∧ (roms.map Rom.identifier).Nodup := by
  simp [problems, problemsAfter_eq_nil_iff]

/-! What is reported about each ROM, by its place in the list. -/

def IsAllowedChar (c : Char) : Prop :=
  ('A' ≤ c ∧ c ≤ 'Z') ∨ ('0' ≤ c ∧ c ≤ '9') ∨ c = '_'

theorem isIdentifierChar_iff (c : Char) : isIdentifierChar c = true ↔ IsAllowedChar c := by
  change (decide ('A'.val ≤ c.val ∧ c.val ≤ 'Z'.val) ||
    (decide ('0'.val ≤ c.val) && decide (c.val ≤ '9'.val)) || c == '_') = true ↔ _
  simp only [IsAllowedChar, Char.le_def, Bool.or_eq_true, Bool.and_eq_true, decide_eq_true_eq,
    beq_iff_eq, or_assoc]

def Allowed (rom : Rom) : Prop :=
  ∀ c ∈ rom.identifier.toList, IsAllowedChar c

theorem hasValidIdentifier_iff (rom : Rom) : rom.hasValidIdentifier = true ↔ rom.Allowed := by
  simp only [hasValidIdentifier, Allowed, List.all_eq_true, isIdentifierChar_iff]

instance (rom : Rom) : Decidable rom.Allowed :=
  decidable_of_iff (rom.hasValidIdentifier = true) (hasValidIdentifier_iff rom)

/-- What is to be reported about a ROM that stands at a place in the list. -/
def problemsAt (roms : List Rom) (entry : Rom × Nat) : List Problem :=
  (if entry.1.Allowed then [] else [.invalid entry.1]) ++
    (if ∃ earlier ∈ roms.take entry.2, earlier.identifier = entry.1.identifier then
      [.repeated entry.1] else [])

theorem problemsAfter_eq_flatMap (seen : List String) (before rest : List Rom)
    (known : ∀ identifier, identifier ∈ seen ↔ identifier ∈ before.map Rom.identifier) :
    problemsAfter seen rest =
      (rest.zipIdx before.length).flatMap (problemsAt (before ++ rest)) := by
  induction rest generalizing seen before with
  | nil => rfl
  | cons rom rest ih =>
      have passed : ∀ identifier, identifier ∈ rom.identifier :: seen ↔
          identifier ∈ (before ++ [rom]).map Rom.identifier := by
        intro identifier
        simp [known, or_comm]
      have later := ih (rom.identifier :: seen) (before ++ [rom]) passed
      rw [List.append_assoc, List.singleton_append, List.length_append, List.length_singleton]
        at later
      have here : problemsAt (before ++ rom :: rest) (rom, before.length) =
          (if rom.hasValidIdentifier then [] else [.invalid rom]) ++
            (if rom.identifier ∈ seen then [.repeated rom] else []) := by
        have earlier : (∃ other ∈ before, other.identifier = rom.identifier) ↔
            rom.identifier ∈ seen := by
          rw [known, List.mem_map]
        simp only [problemsAt, List.take_left, earlier, hasValidIdentifier_iff]
      rw [List.zipIdx_cons, List.flatMap_cons, here, problemsAfter, later, List.append_assoc]

end Rom

/-! How often each identifier is reported. -/

namespace Problem

inductive Kind where
  | invalid
  | repeated
deriving DecidableEq, Repr

def kind : Problem → Kind
  | .invalid _ => .invalid
  | .repeated _ => .repeated

/-- What is reported and about which identifier, whichever of its ROMs it names. -/
def mark (problem : Problem) : Kind × String :=
  (problem.kind, problem.rom.identifier)

end Problem

namespace Rom

theorem marks_cons (seen : List String) (rom : Rom) (rest : List Rom) :
    (problemsAfter seen (rom :: rest)).map Problem.mark =
      (if rom.hasValidIdentifier then [] else [(.invalid, rom.identifier)]) ++
        ((if rom.identifier ∈ seen then [(.repeated, rom.identifier)] else []) ++
          (problemsAfter (rom.identifier :: seen) rest).map Problem.mark) := by
  simp only [problemsAfter, List.map_append, List.append_assoc, apply_ite (List.map Problem.mark),
    List.map_nil, List.map_cons]
  rfl

theorem count_invalid (seen : List String) (roms : List Rom) (identifier : String) :
    ((problemsAfter seen roms).map Problem.mark).count (.invalid, identifier) =
      if identifier.toList.all isIdentifierChar then 0
      else (roms.map Rom.identifier).count identifier := by
  induction roms generalizing seen with
  | nil => simp [problemsAfter]
  | cons rom rest ih =>
      have notRepeated : (if rom.identifier ∈ seen then
          [(Problem.Kind.repeated, rom.identifier)] else []).count (.invalid, identifier) = 0 := by
        split <;> simp
      rw [marks_cons, List.count_append, List.count_append, ih, notRepeated, List.map_cons,
        List.count_cons, hasValidIdentifier]
      by_cases same : rom.identifier = identifier
      · rw [same]
        split <;> simp [Nat.add_comm]
      · split <;> simp [same]

theorem count_repeated (seen : List String) (roms : List Rom) (identifier : String) :
    ((problemsAfter seen roms).map Problem.mark).count (.repeated, identifier) =
      (roms.map Rom.identifier).count identifier - if identifier ∈ seen then 0 else 1 := by
  induction roms generalizing seen with
  | nil => simp [problemsAfter]
  | cons rom rest ih =>
      have notInvalid : (if rom.hasValidIdentifier then [] else
          [(Problem.Kind.invalid, rom.identifier)]).count (.repeated, identifier) = 0 := by
        split <;> simp
      rw [marks_cons, List.count_append, List.count_append, ih, notInvalid, List.map_cons,
        List.count_cons]
      by_cases same : rom.identifier = identifier
      · rw [same]
        split <;> simp [Nat.add_comm]
      · have unaffected : identifier ∈ rom.identifier :: seen ↔ identifier ∈ seen := by
          simp [Ne.symm same]
        simp only [unaffected]
        split <;> simp [same]

theorem perm_marks {roms others : List Rom} (perm : roms.Perm others) :
    ((problems roms).map Problem.mark).Perm ((problems others).map Problem.mark) := by
  rw [List.perm_iff_count]
  rintro ⟨kind, identifier⟩
  have sameCount := (perm.map Rom.identifier).count_eq identifier
  cases kind with
  | invalid => rw [problems, problems, count_invalid, count_invalid, sameCount]
  | repeated => rw [problems, problems, count_repeated, count_repeated, sameCount]

theorem countP_repeated_cons (seen : List String) (rom : Rom) (rest : List Rom) :
    (problemsAfter seen (rom :: rest)).countP (fun problem => problem.kind = .repeated) =
      (if rom.identifier ∈ seen then 1 else 0) +
        (problemsAfter (rom.identifier :: seen) rest).countP
          (fun problem => problem.kind = .repeated) := by
  rw [problemsAfter, List.countP_append, List.countP_append]
  split
  · split <;> simp [Problem.kind]
  · split <;> simp [Problem.kind]

theorem card_insert_sdiff (identifier : String) (later seen : Finset String) :
    (insert identifier later \ seen).card =
      (if identifier ∈ seen then 0 else 1) + (later \ insert identifier seen).card := by
  by_cases repeated : identifier ∈ seen
  · rw [Finset.insert_sdiff_of_mem _ repeated, Finset.insert_eq_of_mem repeated, if_pos repeated,
      Nat.zero_add]
  · have apart : identifier ∉ later \ insert identifier seen := by simp
    have parted : insert identifier later \ seen =
        insert identifier (later \ insert identifier seen) := by
      ext other
      by_cases same : other = identifier
      · simp [same, repeated]
      · simp [same]
    rw [parted, Finset.card_insert_of_notMem apart, if_neg repeated, Nat.add_comm]

theorem countP_repeated (seen : List String) (roms : List Rom) :
    (problemsAfter seen roms).countP (fun problem => problem.kind = .repeated) +
      ((roms.map Rom.identifier).toFinset \ seen.toFinset).card = roms.length := by
  induction roms generalizing seen with
  | nil => simp [problemsAfter]
  | cons rom rest ih =>
      have later := ih (rom.identifier :: seen)
      rw [List.toFinset_cons] at later
      rw [countP_repeated_cons, List.map_cons, List.toFinset_cons, card_insert_sdiff,
        List.length_cons, ← later]
      by_cases repeated : rom.identifier ∈ seen
      · simp only [repeated, List.mem_toFinset, if_true]
        omega
      · simp only [repeated, List.mem_toFinset, if_false]
        omega

theorem repeated_notMem_iff (roms : List Rom) :
    .repeated ∉ (problems roms).map Problem.kind ↔ (roms.map Rom.identifier).Nodup := by
  have unreported : .repeated ∉ (problems roms).map Problem.kind ↔
      (problems roms).countP (fun problem => problem.kind = .repeated) = 0 := by
    simp [List.countP_eq_zero]
  have counted := countP_repeated [] roms
  rw [List.toFinset_nil, Finset.sdiff_empty, ← problems] at counted
  rw [unreported]
  constructor
  · intro none
    rw [none, Nat.zero_add, ← List.length_map Rom.identifier] at counted
    exact Multiset.coe_nodup.mp (Multiset.toFinset_card_eq_card_iff_nodup.mp counted)
  · intro distinct
    rw [List.toFinset_card_of_nodup distinct, List.length_map] at counted
    omega

/-- The report goes through the list, for each ROM first that its identifier holds a character that
is not allowed and then that an earlier ROM has the same one. So it is empty exactly if the
identifiers are allowed and distinct, every ROM but the first of its identifier counts as repeated,
and the order of the list decides which ROMs are named but not how often an identifier is. -/
theorem problems_exact :
    (∀ roms, problems roms = roms.zipIdx.flatMap (problemsAt roms)) ∧
    (∀ roms, problems roms = [] ↔
      (∀ rom ∈ roms, rom.Allowed) ∧ (roms.map Rom.identifier).Nodup) ∧
    (∀ roms, (problems roms).countP (fun problem => problem.kind = .repeated) +
      (roms.map Rom.identifier).toFinset.card = roms.length) ∧
    ∀ roms others, roms.Perm others →
      ((problems roms).map fun problem => problem.rom.identifier).Perm
        ((problems others).map fun problem => problem.rom.identifier) ∧
      ∀ kind, (problems roms).countP (fun problem => problem.kind = kind) =
        (problems others).countP fun problem => problem.kind = kind := by
  refine ⟨?_, ?_, ?_, ?_⟩
  · intro roms
    exact problemsAfter_eq_flatMap [] [] roms (by simp)
  · intro roms
    simp only [problems_eq_nil_iff, hasValidIdentifier_iff]
  · intro roms
    have counted := countP_repeated [] roms
    rwa [List.toFinset_nil, Finset.sdiff_empty] at counted
  · intro roms others perm
    have marks := perm_marks perm
    refine ⟨?_, ?_⟩
    · simpa [Problem.mark, Function.comp_def] using marks.map Prod.snd
    · intro kind
      have counted := marks.countP_eq fun mark => mark.1 = kind
      rwa [List.countP_map, List.countP_map] at counted

def twoPairs : List Rom :=
  [⟨"a.b", "A_B"⟩, ⟨"x-y", "X-Y"⟩, ⟨"A_B", "A_B"⟩, ⟨"X-Y", "X-Y"⟩]

theorem problems_exact_twoPairs :
    twoPairs.Perm twoPairs.reverse ∧
      problems twoPairs = [.invalid ⟨"x-y", "X-Y"⟩, .repeated ⟨"A_B", "A_B"⟩,
        .invalid ⟨"X-Y", "X-Y"⟩, .repeated ⟨"X-Y", "X-Y"⟩] ∧
      problems twoPairs.reverse = [.invalid ⟨"X-Y", "X-Y"⟩, .invalid ⟨"x-y", "X-Y"⟩,
        .repeated ⟨"x-y", "X-Y"⟩, .repeated ⟨"a.b", "A_B"⟩] ∧
      ((problems twoPairs).map fun problem => problem.rom.identifier).Perm
        ((problems twoPairs.reverse).map fun problem => problem.rom.identifier) ∧
      ∀ kind, (problems twoPairs).countP (fun problem => problem.kind = kind) =
        (problems twoPairs.reverse).countP fun problem => problem.kind = kind := by
  have turned : twoPairs.Perm twoPairs.reverse := twoPairs.reverse_perm.symm
  exact ⟨turned, by decide +kernel, by decide +kernel,
    problems_exact.2.2.2 twoPairs twoPairs.reverse turned⟩

end Rom

end RomCatalog
