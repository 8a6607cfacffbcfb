import Mathlib.Data.List.Nodup
import RomCatalog.Proofs.Utf8
import RomCatalog.Scan

/-!
What a scan finds. It goes through if the directory can be listed and every entry is either
examined or a link that leads nowhere, and then it gives each regular file with a name of text
exactly once. Everything it fails with is about the scanned directory.
-/

namespace RomCatalog

namespace FileSystem

theorem nameIn?_eq_some_iff {directory place : Place} {name : Name} :
    nameIn? directory place = some name ↔ place = name :: directory := by
  cases place with
  | nil => simp [nameIn?]
  | cons first parent =>
      simp only [nameIn?, List.cons.injEq]
      constructor
      · intro found
        split at found
        · rename_i same
          exact ⟨Option.some.inj found, same⟩
        · simp at found
      · rintro ⟨rfl, rfl⟩
        simp

theorem namesIn_eq (fs : FileSystem) (directory : Place) :
    fs.namesIn directory = (fs.objects.map Prod.fst).filterMap (nameIn? directory) := by
  rw [List.filterMap_map]
  rfl

theorem nodup_namesIn (fs : FileSystem) (directory : Place) : (fs.namesIn directory).Nodup := by
  rw [namesIn_eq]
  refine fs.unique.filterMap ?_
  intro left right name leftNamed rightNamed
  rw [Option.mem_def, nameIn?_eq_some_iff] at leftNamed rightNamed
  rw [leftNamed, rightNamed]

theorem nodup_of_list {fs : FileSystem} {path : Path} {names : List Name}
    (listed : fs.list path = .ok names) : names.Nodup := by
  unfold list at listed
  split at listed
  · simp at listed
  · rename_i location _
    rw [Except.ok.injEq] at listed
    subst listed
    cases location with
    | inTree place => exact fs.nodup_namesIn place
    | removed above => exact List.nodup_nil
  · simp at listed

end FileSystem

namespace Scan

variable (fs : FileSystem) (root : Path)

def Examinable (name : Name) : Prop :=
  (∃ object, fs.stat (root.join ⟨name⟩) = .ok object) ∨
    (fs.stat (root.join ⟨name⟩) = .error .notFound ∧ fs.isLink (root.join ⟨name⟩) = true)

/-- The directory lists the text, and what is found under it is a regular file. -/
def Offers (text : String) : Prop :=
  (∃ names, fs.list root = .ok names ∧ Utf8.encode text ∈ names) ∧
    ∃ contents, fs.stat (root.join (Path.ofString text)) = .ok (.file contents)

def found (names : List Name) : List Rom :=
  names.filterMap fun name => (sight fs root name).rom?

/-- What a scan that goes through records about listed names, one after the other. -/
def notes (names : List Name) : List Record :=
  names.filterMap fun name => (sight fs root name).record?

theorem fault?_sight_eq_none_iff (name : Name) :
    (sight fs root name).fault? = none ↔ Examinable fs root name := by
  unfold sight Examinable
  dsimp only
  split
  · rename_i fault failed
    split
    · rename_i dangling
      simp [Sighting.fault?, failed, dangling.1, dangling.2]
    · rename_i notDangling
      simp only [Sighting.fault?, failed, reduceCtorEq, exists_false, Except.error.injEq, false_or,
        false_iff]
      exact notDangling
  · rename_i contents examined
    split
    · simp [Sighting.fault?, examined]
    · simp [Sighting.fault?, examined]
  · rename_i object _ examined
    simp [Sighting.fault?, examined]

theorem rom?_sight_eq_some_iff (name : Name) (rom : Rom) :
    (sight fs root name).rom? = some rom ↔
      ∃ text, rom = Rom.ofName text ∧ Utf8.encode text = name ∧
        ∃ contents, fs.stat (root.join ⟨name⟩) = .ok (.file contents) := by
  unfold sight
  dsimp only
  split
  · rename_i fault failed
    split
    · simp [Sighting.rom?, failed]
    · simp [Sighting.rom?, failed]
  · rename_i contents examined
    split
    · rename_i text decoded
      simp only [Sighting.rom?, Option.some.injEq, examined]
      constructor
      · rintro rfl
        exact ⟨text, rfl, Utf8.decode?_eq_some_iff.mp decoded, contents, rfl⟩
      · rintro ⟨other, rfl, encoded, _⟩
        rw [← encoded, Utf8.decode?_encode, Option.some.injEq] at decoded
        rw [decoded]
    · rename_i undecoded
      simp only [Sighting.rom?, reduceCtorEq, false_iff]
      rintro ⟨text, _, encoded, _⟩
      rw [← encoded, Utf8.decode?_encode] at undecoded
      simp at undecoded
  · rename_i object other examined
    simp only [Sighting.rom?, reduceCtorEq, examined, Except.ok.injEq, false_iff]
    rintro ⟨_, _, _, contents, rfl⟩
    exact other contents rfl

theorem mem_found_iff (names : List Name) (rom : Rom) :
    rom ∈ found fs root names ↔
      ∃ text, rom = Rom.ofName text ∧ Utf8.encode text ∈ names ∧
        ∃ contents, fs.stat (root.join (Path.ofString text)) = .ok (.file contents) := by
  simp only [found, List.mem_filterMap, rom?_sight_eq_some_iff]
  constructor
  · rintro ⟨name, listed, text, rfl, rfl, regular⟩
    exact ⟨text, rfl, listed, regular⟩
  · rintro ⟨text, rfl, listed, regular⟩
    exact ⟨_, listed, text, rfl, rfl, regular⟩

theorem mem_found_iff_offers {names : List Name} (listed : fs.list root = .ok names) (rom : Rom) :
    rom ∈ found fs root names ↔ ∃ text, rom = Rom.ofName text ∧ Offers fs root text := by
  rw [mem_found_iff]
  simp [Offers, listed]

theorem nodup_found {names : List Name} (distinct : names.Nodup) : (found fs root names).Nodup := by
  refine distinct.filterMap ?_
  intro left right rom leftRom rightRom
  rw [Option.mem_def, rom?_sight_eq_some_iff] at leftRom rightRom
  obtain ⟨leftText, rfl, rfl, _⟩ := leftRom
  obtain ⟨rightText, same, rfl, _⟩ := rightRom
  exact congrArg (fun rom => Utf8.encode rom.name) same

theorem nodup_map_found {α : Type} {f : Rom → α}
    (apart : ∀ left right, f (.ofName left) = f (.ofName right) → left = right)
    {names : List Name} (distinct : names.Nodup) : ((found fs root names).map f).Nodup := by
  refine List.Nodup.map_on ?_ (nodup_found fs root distinct)
  intro left leftMember right rightMember same
  obtain ⟨leftText, rfl, _⟩ := (mem_found_iff fs root names left).mp leftMember
  obtain ⟨rightText, rfl, _⟩ := (mem_found_iff fs root names right).mp rightMember
  rw [apart leftText rightText same]

theorem sublist_found (names : List Name) :
    ((found fs root names).map fun rom => Utf8.encode rom.name).Sublist names := by
  induction names with
  | nil => exact List.Sublist.slnil
  | cons name rest ih =>
      cases sighted : (sight fs root name).rom? with
      | none =>
          have passed : found fs root (name :: rest) = found fs root rest :=
            List.filterMap_cons_none sighted
          rw [passed]
          exact ih.cons name
      | some rom =>
          obtain ⟨text, rfl, rfl, _⟩ := (rom?_sight_eq_some_iff fs root name rom).mp sighted
          have kept : found fs root (Utf8.encode text :: rest) =
              Rom.ofName text :: found fs root rest := List.filterMap_cons_some sighted
          rw [kept, List.map_cons]
          exact ih.cons_cons _

theorem perm_arrange (sorted : Bool) (roms : List Rom) : (arrange sorted roms).Perm roms := by
  unfold arrange
  split
  · exact List.mergeSort_perm roms precedes
  · exact List.Perm.refl roms

theorem pairwise_arrange (roms : List Rom) :
    (arrange true roms).Pairwise fun a b => Utf8.encode a.name ≤ Utf8.encode b.name := by
  have ordered : (roms.mergeSort precedes).Pairwise fun a b => precedes a b = true := by
    refine List.pairwise_mergeSort ?_ ?_ roms
    · intro a b c first second
      simp only [precedes, decide_eq_true_eq] at first second ⊢
      exact List.le_trans first second
    · intro a b
      simp only [precedes, Bool.or_eq_true, decide_eq_true_eq]
      exact List.le_total _ _
  simpa [arrange, precedes] using ordered

/-! The three ways in which a scan ends. -/

theorem scan_of_list_error {fault : Fault} (unlisted : fs.list root = .error fault)
    (sorted : Bool) :
    scan fs root sorted = .failed (.directoryAccess root fault) := by
  simp [scan, unlisted]

theorem scan_of_not_examinable {names : List Name} (listed : fs.list root = .ok names)
    (blocked : ¬ ∀ name ∈ names, Examinable fs root name) (sorted : Bool) :
    ∃ journal fault, scan fs root sorted = ⟨journal, .error (.directoryAccess root fault)⟩ := by
  cases faults : (names.map (sight fs root)).findSome? Sighting.fault? with
  | none =>
      refine absurd ?_ blocked
      intro name member
      have sighted := List.findSome?_eq_none_iff.mp faults (sight fs root name)
        (List.mem_map.mpr ⟨name, member, rfl⟩)
      exact (fault?_sight_eq_none_iff fs root name).mp sighted
  | some fault =>
      simp only [scan, listed, faults]
      exact ⟨_, _, rfl⟩

theorem scan_of_examinable {names : List Name} (listed : fs.list root = .ok names)
    (examinable : ∀ name ∈ names, Examinable fs root name) (sorted : Bool) :
    scan fs root sorted =
      ⟨notes fs root names ++ warnings (arrange sorted (found fs root names)),
        .ok (arrange sorted (found fs root names))⟩ := by
  have clear : (names.map (sight fs root)).findSome? Sighting.fault? = none := by
    rw [List.findSome?_eq_none_iff]
    intro sighting member
    obtain ⟨name, named, rfl⟩ := List.mem_map.mp member
    exact (fault?_sight_eq_none_iff fs root name).mpr (examinable name named)
  simp only [scan, listed, clear, List.filterMap_map, found, notes, Function.comp_def]

theorem outcome_eq_ok_iff (sorted : Bool) (roms : List Rom) :
    (scan fs root sorted).outcome = .ok roms ↔
      ∃ names, fs.list root = .ok names ∧ (∀ name ∈ names, Examinable fs root name) ∧
        roms = arrange sorted (found fs root names) := by
  cases listing : fs.list root with
  | error fault => simp [scan_of_list_error fs root listing, Attempt.failed]
  | ok names =>
      by_cases examinable : ∀ name ∈ names, Examinable fs root name
      · rw [scan_of_examinable fs root listing examinable]
        constructor
        · intro given
          exact ⟨names, rfl, examinable, (Outcome.ok.inj given).symm⟩
        · rintro ⟨others, same, _, rfl⟩
          rw [Except.ok.inj same]
      · obtain ⟨journal, fault, ended⟩ := scan_of_not_examinable fs root listing examinable sorted
        simp [ended, examinable]

theorem outcome_cases (sorted : Bool) :
    (∃ fault, (scan fs root sorted).outcome = .error (.directoryAccess root fault)) ∨
      ∃ roms, (scan fs root sorted).outcome = .ok roms := by
  cases listing : fs.list root with
  | error fault =>
      rw [scan_of_list_error fs root listing]
      exact .inl ⟨fault, rfl⟩
  | ok names =>
      by_cases examinable : ∀ name ∈ names, Examinable fs root name
      · rw [scan_of_examinable fs root listing examinable]
        exact .inr ⟨_, rfl⟩
      · obtain ⟨journal, fault, ended⟩ := scan_of_not_examinable fs root listing examinable sorted
        rw [ended]
        exact .inl ⟨fault, rfl⟩

/-- A scan ends. When it goes through, what it then gives and in which order, and what it fails
with. -/
theorem scan_exact (sorted : Bool) :
    (scan fs root sorted).outcome ≠ .endless ∧
    ((∃ roms, (scan fs root sorted).outcome = .ok roms) ↔
      ∃ names, fs.list root = .ok names ∧ ∀ name ∈ names, Examinable fs root name) ∧
    (∀ failure, (scan fs root sorted).outcome = .error failure →
      ∃ fault, failure = .directoryAccess root fault) ∧
    ∀ roms, (scan fs root sorted).outcome = .ok roms →
      roms.Nodup ∧
      (∀ rom, rom ∈ roms ↔ ∃ text, rom = Rom.ofName text ∧ Offers fs root text) ∧
      (sorted = true → roms.Pairwise fun a b => Utf8.encode a.name ≤ Utf8.encode b.name) ∧
      (sorted = false → ∀ names, fs.list root = .ok names →
        (roms.map fun rom => Utf8.encode rom.name).Sublist names) := by
  refine ⟨?_, ?_, ?_, ?_⟩
  · rcases outcome_cases fs root sorted with ⟨fault, failed⟩ | ⟨roms, succeeded⟩
    · simp [failed]
    · simp [succeeded]
  · simp only [outcome_eq_ok_iff]
    constructor
    · rintro ⟨_, names, listed, examinable, _⟩
      exact ⟨names, listed, examinable⟩
    · rintro ⟨names, listed, examinable⟩
      exact ⟨_, names, listed, examinable, rfl⟩
  · intro failure failed
    rcases outcome_cases fs root sorted with ⟨fault, ended⟩ | ⟨roms, succeeded⟩
    · exact ⟨fault, Outcome.error.inj (failed.symm.trans ended)⟩
    · simp [succeeded] at failed
  · intro roms succeeded
    obtain ⟨names, listed, _, rfl⟩ := (outcome_eq_ok_iff fs root sorted roms).mp succeeded
    have arranged := perm_arrange sorted (found fs root names)
    refine ⟨?_, ?_, ?_, ?_⟩
    · exact arranged.nodup_iff.mpr (nodup_found fs root (FileSystem.nodup_of_list listed))
    · intro rom
      rw [arranged.mem_iff, mem_found_iff_offers fs root listed]
    · rintro rfl
      exact pairwise_arrange _
    · rintro rfl others relisted
      rw [listed, Except.ok.injEq] at relisted
      subst relisted
      exact sublist_found fs root names

end Scan

end RomCatalog
