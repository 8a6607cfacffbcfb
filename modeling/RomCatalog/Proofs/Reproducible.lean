import RomCatalog.Manifest.Output
import RomCatalog.Proofs.Reordering
import RomCatalog.Proofs.Scan

/-!
A sorted manifest depends on the names of the regular files in the scanned directory and on nothing
else: not on the order of the listing, the contents of the files, the links that lead to them or
the other entries. Whether the scan goes through depends on the entries but not on their order.
-/

namespace RomCatalog

namespace Scan

variable {fs other : FileSystem} {root : Path}

theorem arrange_eq_of_perm {roms others : List Rom} (perm : roms.Perm others)
    (named : ∀ rom ∈ roms, ∃ text, rom = Rom.ofName text) :
    arrange true roms = arrange true others := by
  have arranged : (arrange true roms).Perm (arrange true others) :=
    (perm_arrange true roms).trans (perm.trans (perm_arrange true others).symm)
  refine List.Perm.eq_of_pairwise ?_ (pairwise_arrange roms) (pairwise_arrange others) arranged
  intro first second firstMember secondMember before after
  have inRoms := (perm_arrange true roms).mem_iff.mp firstMember
  have inOthers := (perm_arrange true others).mem_iff.mp secondMember
  obtain ⟨firstName, rfl⟩ := named first inRoms
  obtain ⟨secondName, rfl⟩ := named second (perm.mem_iff.mpr inOthers)
  have same : firstName = secondName := Utf8.encode_injective (List.le_antisymm before after)
  rw [same]

theorem ofName_mem_found_iff {names : List Name} (listed : fs.list root = .ok names)
    (text : String) : Rom.ofName text ∈ found fs root names ↔ Offers fs root text := by
  rw [mem_found_iff_offers fs root listed]
  constructor
  · rintro ⟨other, same, offered⟩
    have names : text = other := congrArg Rom.name same
    rwa [names]
  · intro offered
    exact ⟨text, rfl, offered⟩

theorem succeeds_of_sight {names : List Name} (listed : fs.list root = .ok names)
    (clear : ∀ name ∈ names, (sight fs root name).fault? = none) {sorted : Bool} :
    ∃ roms, (scan fs root sorted).outcome = .ok roms := by
  refine ⟨_, (outcome_eq_ok_iff fs root sorted _).mpr ⟨names, listed, ?_, rfl⟩⟩
  intro name member
  exact (fault?_sight_eq_none_iff fs root name).mp (clear name member)

theorem perm_found {names others : List Name} (listed : fs.list root = .ok names)
    (relisted : other.list root = .ok others)
    (agree : ∀ text, Offers fs root text ↔ Offers other root text) :
    (found fs root names).Perm (found other root others) := by
  have distinct := nodup_found fs root (FileSystem.nodup_of_list listed)
  have otherDistinct := nodup_found other root (FileSystem.nodup_of_list relisted)
  refine (List.perm_ext_iff_of_nodup distinct otherDistinct).mpr ?_
  intro rom
  rw [mem_found_iff_offers fs root listed, mem_found_iff_offers other root relisted]
  simp only [agree]

theorem examinable_iff_of_sameTree (same : fs.SameTree other) (name : Name) :
    Examinable fs root name ↔ Examinable other root name := by
  unfold Examinable
  rw [same.stat, same.isLink]

theorem succeeds_of_sameTree (same : fs.SameTree other) {sorted : Bool}
    (succeeded : ∃ roms, (scan fs root sorted).outcome = .ok roms) :
    ∃ roms, (scan other root sorted).outcome = .ok roms := by
  obtain ⟨roms, given⟩ := succeeded
  obtain ⟨names, listed, examinable, _⟩ := (outcome_eq_ok_iff fs root sorted roms).mp given
  obtain ⟨others, relisted, perm⟩ := same.list listed
  refine ⟨_, (outcome_eq_ok_iff other root sorted _).mpr ⟨others, relisted, ?_, rfl⟩⟩
  intro name member
  exact (examinable_iff_of_sameTree same name).mp (examinable name (perm.mem_iff.mpr member))

end Scan

namespace Manifest

def summary (settings : Settings) (roms : List Rom) : Record :=
  ⟨.info, toString roms.length ++ " ROMs in " ++ settings.romDirectory.text⟩

/-- A manifest is made of these ROMs. Behind the notes about the entries of the directory, all that
is recorded and the text itself come from the ROMs and the settings alone. -/
def Composes (fs : FileSystem) (settings : Settings) (roms : List Rom) : Prop :=
  ∃ names, fs.list settings.romDirectory = .ok names ∧
    compose fs settings =
      ⟨Scan.notes fs settings.romDirectory names ++
        (Scan.warnings roms ++ [summary settings roms]), .ok (text settings roms)⟩

theorem composes_found {fs : FileSystem} {settings : Settings} {names : List Name}
    (listed : fs.list settings.romDirectory = .ok names)
    (examinable : ∀ name ∈ names, Scan.Examinable fs settings.romDirectory name) :
    Composes fs settings
      (Scan.arrange settings.sorted (Scan.found fs settings.romDirectory names)) := by
  have scanned := Scan.scan_of_examinable fs _ listed examinable settings.sorted
  refine ⟨names, listed, ?_⟩
  simp only [compose, scanned, bind, Attempt.andThen, Attempt.note, pure, Attempt.done, summary,
    List.append_nil, List.append_assoc]

/-- Two states that offer the same names give the same sorted manifest with the same warnings, and
no order of the listing lets a scan go through that fails in another order. -/
theorem compose_reproducible :
    (∀ (settings : Settings) (fs other : FileSystem), settings.sorted = true →
      (∃ roms, (Scan.scan fs settings.romDirectory settings.sorted).outcome = .ok roms) →
      (∃ roms, (Scan.scan other settings.romDirectory settings.sorted).outcome = .ok roms) →
      (∀ text, Scan.Offers fs settings.romDirectory text ↔
        Scan.Offers other settings.romDirectory text) →
      ∃ roms, Composes fs settings roms ∧ Composes other settings roms) ∧
    ∀ (fs other : FileSystem) (root : Path) (sorted : Bool), fs.SameTree other →
      ((∃ roms, (Scan.scan fs root sorted).outcome = .ok roms) ↔
        ∃ roms, (Scan.scan other root sorted).outcome = .ok roms) := by
  refine ⟨?_, ?_⟩
  · intro settings fs other sorted scanned rescanned agree
    obtain ⟨_, given⟩ := scanned
    obtain ⟨_, regiven⟩ := rescanned
    obtain ⟨names, listed, examinable, _⟩ := (Scan.outcome_eq_ok_iff _ _ _ _).mp given
    obtain ⟨others, relisted, reexaminable, _⟩ := (Scan.outcome_eq_ok_iff _ _ _ _).mp regiven
    have arranged : Scan.arrange settings.sorted (Scan.found fs settings.romDirectory names) =
        Scan.arrange settings.sorted (Scan.found other settings.romDirectory others) := by
      rw [sorted]
      refine Scan.arrange_eq_of_perm (Scan.perm_found listed relisted agree) ?_
      intro rom member
      obtain ⟨text, named, _⟩ := (Scan.mem_found_iff_offers fs _ listed rom).mp member
      exact ⟨text, named⟩
    have composed := composes_found listed examinable
    have recomposed := composes_found relisted reexaminable
    rw [← arranged] at recomposed
    exact ⟨_, composed, recomposed⟩
  · intro fs other root sorted same
    exact ⟨Scan.succeeds_of_sameTree same, Scan.succeeds_of_sameTree same.symm⟩

def plainShelf : FileSystem where
  objects :=
    [([Utf8.encode "app"], .directory),
      ([Utf8.encode "games"], .directory),
      ([Utf8.encode "a.nes", Utf8.encode "games"], .file [1]),
      ([Utf8.encode "A.nes", Utf8.encode "games"], .file [])]
  current := .inTree [Utf8.encode "app"]
  unique := by decide +kernel

def mixedShelf : FileSystem where
  objects :=
    [([Utf8.encode "A.nes", Utf8.encode "games"], .link (Path.ofString "/shared")),
      ([[255], Utf8.encode "games"], .file [2]),
      ([Utf8.encode "gone", Utf8.encode "games"], .link (Path.ofString "nowhere")),
      ([Utf8.encode "old", Utf8.encode "games"], .directory),
      ([Utf8.encode "a.nes", Utf8.encode "games"], .file [3]),
      ([Utf8.encode "shared"], .file [4]),
      ([Utf8.encode "games"], .directory),
      ([Utf8.encode "app"], .directory)]
  current := .inTree [Utf8.encode "app"]
  unique := by decide +kernel

theorem compose_reproducible_shelves :
    (∃ roms, Composes plainShelf Settings.default roms ∧
      Composes mixedShelf Settings.default roms) ∧
    ((∃ roms, (Scan.scan mixedShelf Settings.default.romDirectory false).outcome = .ok roms) ↔
      ∃ roms, (Scan.scan mixedShelf.reversed Settings.default.romDirectory false).outcome =
        .ok roms) := by
  have plainListed : plainShelf.list Settings.default.romDirectory =
      .ok [Utf8.encode "a.nes", Utf8.encode "A.nes"] := rfl
  have mixedListed : mixedShelf.list Settings.default.romDirectory =
      .ok [Utf8.encode "A.nes", [255], Utf8.encode "gone", Utf8.encode "old",
        Utf8.encode "a.nes"] := rfl
  refine ⟨compose_reproducible.1 Settings.default plainShelf mixedShelf rfl ?_ ?_ ?_,
    compose_reproducible.2 mixedShelf mixedShelf.reversed Settings.default.romDirectory false
      mixedShelf.sameTree_reversed⟩
  · exact Scan.succeeds_of_sight plainListed (by decide +kernel)
  · exact Scan.succeeds_of_sight mixedListed (by decide +kernel)
  · intro name
    rw [← Scan.ofName_mem_found_iff plainListed, ← Scan.ofName_mem_found_iff mixedListed]
    have plainFound : Scan.found plainShelf Settings.default.romDirectory
        [Utf8.encode "a.nes", Utf8.encode "A.nes"] =
          [Rom.ofName "a.nes", Rom.ofName "A.nes"] := by decide +kernel
    have mixedFound : Scan.found mixedShelf Settings.default.romDirectory
        [Utf8.encode "A.nes", [255], Utf8.encode "gone", Utf8.encode "old",
          Utf8.encode "a.nes"] = [Rom.ofName "A.nes", Rom.ofName "a.nes"] := by decide +kernel
    rw [plainFound, mixedFound]
    simp [or_comm]

end Manifest

end RomCatalog
