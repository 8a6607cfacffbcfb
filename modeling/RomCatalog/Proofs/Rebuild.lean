import RomCatalog.Proofs.Footprint
import RomCatalog.Proofs.Reproducible
import RomCatalog.Proofs.Trail

/-!
A build that runs again finds what it left as it left it. The output file is written into the file
system that is scanned, so this takes that the file, if it is new, is no entry of the scanned
directory and that no entry is looked up by way of its place.
-/

namespace RomCatalog

namespace FileSystem

variable {fs : FileSystem} {directory place : Place} {landing : Landing} {contents : Bytes}

/-! A file that is written where nothing was, or a file. -/

theorem alike_put (takes : Takes fs place landing) {seen : Place}
    (unseen : fs.object? place = none → seen ≠ place) :
    Alike (fs.object? seen) ((fs.put place (.file contents)).object? seen) := by
  by_cases same : seen = place
  · subst same
    rw [object?_put_self takes.ne_nil]
    cases takes with
    | vacant absent => exact absurd rfl (unseen absent)
    | file old present =>
        rw [present]
        exact .files old contents
  · rw [object?_put_of_ne same]
    exact .same _

theorem alike_put_of_trail (takes : Takes fs place landing) {path : Path}
    (unpassed : fs.object? place = none → place ∉ fs.trailOf path) :
    ∀ seen ∈ fs.trailOf path,
      Alike (fs.object? seen) ((fs.put place (.file contents)).object? seen) := by
  intro seen passed
  refine alike_put takes ?_
  rintro absent rfl
  exact unpassed absent passed

theorem notMem_trailOf_directory {path : Path} {location : Location}
    (takes : Takes fs place landing)
    (found : fs.locate .follow path = .ok (location, .directory)) : place ∉ fs.trailOf path := by
  intro passed
  unfold locate at found
  split at found
  · simp at found
  · simp at found
  · rename_i goal landed
    split at found
    · simp at found
    · simp at found
    · simp at found
    · rename_i object notBroken notLink present
      simp only [Except.ok.injEq, Prod.mk.injEq] at found
      obtain ⟨rfl, rfl⟩ := found
      have walks := (land_eq_ok_iff.mp landed).2.2.2
      rcases walks.object?_of_mem_trail rfl present passed with isDirectory | ⟨target, isLink⟩
      · exact takes.ne_directory isDirectory
      · exact takes.ne_link target isLink

theorem mem_places_of_object? {object : Object} (named : place ≠ [])
    (present : fs.object? place = some object) : place ∈ fs.objects.map Prod.fst := by
  rw [object?_of_ne_nil named, Lookup.lookup_eq_some_iff_mem fs.unique] at present
  exact List.mem_map.mpr ⟨_, present, rfl⟩

theorem places_put_of_mem {object : Object} (present : place ∈ fs.objects.map Prod.fst) :
    (fs.put place object).objects.map Prod.fst = fs.objects.map Prod.fst := by
  rw [objects_put_of_mem present, List.map_map]
  refine List.map_congr_left ?_
  intro entry _
  by_cases same : entry.1 = place
  · simp [same]
  · simp [same]

theorem namesIn_put (takes : Takes fs place landing)
    (outside : fs.object? place = none → nameIn? directory place = none) :
    (fs.put place (.file contents)).namesIn directory = fs.namesIn directory := by
  rw [namesIn_eq, namesIn_eq]
  by_cases present : place ∈ fs.objects.map Prod.fst
  · rw [places_put_of_mem present]
  · have absent : fs.object? place = none := by
      cases found : fs.object? place with
      | none => rfl
      | some object => exact absurd (mem_places_of_object? takes.ne_nil found) present
    rw [objects_put_of_notMem present, List.map_cons, List.filterMap_cons_none (outside absent)]

theorem list_put {path : Path} {names : List Name} (takes : Takes fs place landing)
    (outside : fs.object? place = none →
      ∀ directory, fs.locate .follow path = .ok (.inTree directory, .directory) →
        nameIn? directory place = none)
    (listed : fs.list path = .ok names) :
    (fs.put place (.file contents)).list path = .ok names := by
  unfold list at listed
  split at listed
  · simp at listed
  · rename_i location found
    have alike : ∀ seen ∈ fs.trailOf path,
        Alike (fs.object? seen) ((fs.put place (.file contents)).object? seen) :=
      alike_put_of_trail takes fun _ => notMem_trailOf_directory takes found
    have again :
        (fs.put place (.file contents)).locate .follow path = .ok (location, .directory) := by
      rcases locate_of_alike .follow alike rfl with same | ⟨_, _, _, isFile, _⟩
      · exact same.trans found
      · simp [found] at isFile
    simp only [list, again]
    rw [← listed]
    cases location with
    | removed above => rfl
    | inTree directory =>
        simp only [namesAt]
        rw [namesIn_put takes fun absent => outside absent directory found]
  · simp at listed

end FileSystem

namespace Scan

variable {fs other again : FileSystem} {root : Path} {place : Place} {landing : Landing}
  {contents : Bytes}

/-- The directory does not list the place, or would not if something were there, and the resolution
of none of its entries looks at the place. -/
structure Apart (fs : FileSystem) (root : Path) (place : Place) : Prop where
  outside : ∀ directory, fs.locate .follow root = .ok (.inTree directory, .directory) →
    FileSystem.nameIn? directory place = none
  unpassed : ∀ names, fs.list root = .ok names →
    ∀ name ∈ names, place ∉ fs.trailOf (root.join ⟨name⟩)

theorem examinable_of_alike {name : Name}
    (alike : ∀ seen ∈ fs.trailOf (root.join ⟨name⟩),
      FileSystem.Alike (fs.object? seen) (other.object? seen))
    (here : other.current = fs.current) (examinable : Examinable fs root name) :
    Examinable other root name := by
  rcases FileSystem.stat_of_alike alike here with same | ⟨_, new, _, restat⟩
  · unfold Examinable
    rw [same, FileSystem.isLink_of_alike alike here]
    exact examinable
  · exact .inl ⟨_, restat⟩

theorem regular_iff_of_alike {path : Path}
    (alike : ∀ seen ∈ fs.trailOf path, FileSystem.Alike (fs.object? seen) (other.object? seen))
    (here : other.current = fs.current) :
    (∃ contents, other.stat path = .ok (.file contents)) ↔
      ∃ contents, fs.stat path = .ok (.file contents) := by
  rcases FileSystem.stat_of_alike alike here with same | ⟨old, new, stat, restat⟩
  · rw [same]
  · exact ⟨fun _ => ⟨old, stat⟩, fun _ => ⟨new, restat⟩⟩

/-! The scanned directory after the output file was written. -/

theorem alike_of_apart (takes : fs.Takes place landing)
    (apart : fs.object? place = none → Apart fs root place) {names : List Name}
    (listed : fs.list root = .ok names) {name : Name} (member : name ∈ names) :
    ∀ seen ∈ fs.trailOf (root.join ⟨name⟩), FileSystem.Alike (fs.object? seen)
      ((fs.put place (.file contents)).object? seen) :=
  FileSystem.alike_put_of_trail takes fun absent => (apart absent).unpassed names listed name member

theorem list_of_apart (takes : fs.Takes place landing)
    (apart : fs.object? place = none → Apart fs root place) {names : List Name}
    (listed : fs.list root = .ok names) :
    (fs.put place (.file contents)).list root = .ok names :=
  FileSystem.list_put takes (fun absent => (apart absent).outside) listed

theorem offers_put_iff (takes : fs.Takes place landing)
    (apart : fs.object? place = none → Apart fs root place) {names : List Name}
    (listed : fs.list root = .ok names) (text : String) :
    Offers (fs.put place (.file contents)) root text ↔ Offers fs root text := by
  have relisted : (fs.put place (.file contents)).list root = .ok names :=
    list_of_apart takes apart listed
  simp only [Offers, listed, relisted, Except.ok.injEq, exists_eq_left']
  refine and_congr_right ?_
  intro member
  exact regular_iff_of_alike (alike_of_apart takes apart listed member) rfl

theorem offers_iff_of_sameTree (same : fs.SameTree other) (text : String) :
    Offers fs root text ↔ Offers other root text := by
  have transferred {fs other : FileSystem} (same : fs.SameTree other)
      (offered : Offers fs root text) : Offers other root text := by
    obtain ⟨⟨names, listed, member⟩, regular⟩ := offered
    obtain ⟨others, relisted, perm⟩ := same.list listed
    rw [same.stat] at regular
    exact ⟨⟨others, relisted, perm.mem_iff.mp member⟩, regular⟩
  exact ⟨transferred same, transferred same.symm⟩

theorem outcome_put (takes : fs.Takes place landing)
    (apart : fs.object? place = none → Apart fs root place)
    (same : (fs.put place (.file contents)).SameTree again) {roms : List Rom}
    (scanned : (scan fs root true).outcome = .ok roms) :
    (scan again root true).outcome = .ok roms := by
  obtain ⟨names, listed, examinable, rfl⟩ := (outcome_eq_ok_iff fs root true roms).mp scanned
  obtain ⟨others, relisted, perm⟩ := same.list (list_of_apart takes apart listed)
  refine (outcome_eq_ok_iff again root true _).mpr ⟨others, relisted, ?_, ?_⟩
  · intro name member
    have before := perm.mem_iff.mpr member
    exact (examinable_iff_of_sameTree same name).mp
      (examinable_of_alike (alike_of_apart takes apart listed before) rfl (examinable name before))
  · refine arrange_eq_of_perm (perm_found listed relisted ?_) ?_
    · intro text
      rw [← offers_put_iff takes apart listed text, offers_iff_of_sameTree same text]
    · intro rom member
      obtain ⟨text, named, _⟩ := (mem_found_iff_offers fs root listed rom).mp member
      exact ⟨text, named⟩

end Scan

namespace Manifest

variable {fs : FileSystem} {settings : Settings}

theorem save_of_written {place : Place} {roms : List Rom}
    (landed : fs.land .make settings.destination = .ok (.at (.inTree place)))
    (named : place ≠ [])
    (written : fs.object? place = some (.file (Utf8.encode (text settings roms)))) :
    save fs settings roms = (fs, .ok ()) := by
  have created : fs.create settings.destination = .ok (fs.put place (.file []), .file place) := by
    simp only [FileSystem.create, landed, written]
  simp only [save, created, FileSystem.write, FileSystem.put_put,
    FileSystem.put_of_object? named written]

theorem build_of_written {roms : List Rom}
    (scanned : (Scan.scan fs settings.romDirectory settings.sorted).outcome = .ok roms)
    (saved : save fs settings roms = (fs, .ok ())) :
    (build fs settings).attempt.outcome = .ok () ∧ (build fs settings).files = fs := by
  simp only [build, scanned, saved, and_self]

/-- Once a sorted build has written its file, a build that follows succeeds too, prints the same and
changes nothing, in whichever order directories list what they hold by then. A place that held a
file before may even be that of a ROM; a new one has to be apart from the scanned directory. -/
theorem build_again (fs opened again : FileSystem) (settings : Settings) (place : Place)
    (sorted : settings.sorted = true)
    (built : (build fs settings).attempt.outcome = .ok ())
    (created : fs.create settings.destination = .ok (opened, .file place))
    (apart : fs.object? place = none → Scan.Apart fs settings.romDirectory place)
    (same : (build fs settings).files.SameTree again) :
    (build again settings).attempt.outcome = .ok () ∧
      (build again settings).output = (build fs settings).output ∧
      (build again settings).files = again := by
  rcases Scan.outcome_cases fs settings.romDirectory settings.sorted with
    ⟨fault, failed⟩ | ⟨roms, scanned⟩
  · simp [(build_of_scan_error failed).1] at built
  · obtain ⟨landing, landed, takes, written, _⟩ :=
      written_of_saves (saves_of_scan scanned) created
    rw [written] at same
    have rescanned :
        (Scan.scan again settings.romDirectory settings.sorted).outcome = .ok roms := by
      rw [sorted] at scanned ⊢
      exact Scan.outcome_put takes apart same scanned
    have relanded : again.land .make settings.destination = .ok (.at (.inTree place)) :=
      (same.land .make settings.destination).symm.trans (FileSystem.land_put takes landed)
    have holds : again.object? place = some (.file (Utf8.encode (text settings roms))) :=
      (same.object? place).symm.trans (FileSystem.object?_put_self takes.ne_nil)
    obtain ⟨succeeded, unchanged⟩ :=
      build_of_written rescanned (save_of_written relanded takes.ne_nil holds)
    have printed : (build again settings).output = (build fs settings).output :=
      (output_build again settings).trans (output_build fs settings).symm
    exact ⟨succeeded, printed, unchanged⟩

theorem build_again_mixedShelf :
    let place := [Utf8.encode "roms.rs", Utf8.encode "app"]
    let files := (build mixedShelf Settings.default).files
    Settings.default.sorted = true ∧
      (build mixedShelf Settings.default).attempt.outcome = .ok () ∧
      mixedShelf.create Settings.default.destination =
        .ok (mixedShelf.put place (.file []), .file place) ∧
      Scan.Apart mixedShelf Settings.default.romDirectory place ∧
      files.SameTree files.reversed ∧
      (build files.reversed Settings.default).attempt.outcome = .ok () ∧
      (build files.reversed Settings.default).output = (build mixedShelf Settings.default).output ∧
      (build files.reversed Settings.default).files = files.reversed := by
  intro place files
  have located : mixedShelf.locate .follow Settings.default.romDirectory =
      .ok (.inTree [Utf8.encode "games"], .directory) := rfl
  have listed : mixedShelf.list Settings.default.romDirectory =
      .ok [Utf8.encode "A.nes", [255], Utf8.encode "gone", Utf8.encode "old",
        Utf8.encode "a.nes"] := rfl
  have apart : Scan.Apart mixedShelf Settings.default.romDirectory place := by
    refine ⟨?_, ?_⟩
    · intro directory found
      rw [located] at found
      simp only [Except.ok.injEq, Prod.mk.injEq, Location.inTree.injEq, and_true] at found
      subst found
      decide +kernel
    · intro names relisted
      rw [listed, Except.ok.injEq] at relisted
      subst relisted
      decide +kernel
  have created : mixedShelf.create Settings.default.destination =
      .ok (mixedShelf.put place (.file []), .file place) := rfl
  obtain ⟨roms, scanned⟩ := Scan.succeeds_of_sight listed (by decide +kernel)
  have built : (build mixedShelf Settings.default).attempt.outcome = .ok () :=
    let ⟨_, _, _, _, ended⟩ := written_of_saves (saves_of_scan scanned) created
    ended
  exact ⟨rfl, built, created, apart, files.sameTree_reversed,
    build_again mixedShelf _ files.reversed Settings.default place rfl built created
      (fun _ => apart) files.sameTree_reversed⟩

def shelvedSettings : Settings :=
  Settings.default.changeAll [.output (Path.ofString "../games") "roms.rs"]

/-- A file that is new in the scanned directory is itself found the next time. -/
example :
    let files := (build plainShelf shelvedSettings).files
    Scan.found files shelvedSettings.romDirectory (files.namesIn [Utf8.encode "games"]) =
      Rom.ofName "roms.rs" :: Scan.found plainShelf shelvedSettings.romDirectory
        (plainShelf.namesIn [Utf8.encode "games"]) := by
  decide +kernel

end Manifest

end RomCatalog
