import RomCatalog.Proofs.Footprint
import RomCatalog.Proofs.SettingsChanges

/-!
Embedded paths lead to the files that were scanned. Settings for a build script embed the scanned
path itself. All others embed a path for code that lies one level below the base, so from any
directory inside the base it goes up once and then where the scan goes.
-/

namespace RomCatalog

namespace Path

/-- The name can be that of a directory: it holds no separator and does not lead up or stay. -/
def IsPlainName (name : Name) : Prop :=
  separator ∉ name ∧ component? name = some (.name name)

instance (name : Name) : Decidable (IsPlainName name) :=
  inferInstanceAs (Decidable (separator ∉ name ∧ component? name = some (.name name)))

theorem isAbsolute_of_isPlainName {name : Name} (plain : IsPlainName name) :
    isAbsolute ⟨name⟩ = false := by
  cases name with
  | nil => rfl
  | cons first rest =>
      have differs : first ≠ separator := fun same => plain.1 (by simp [same])
      simpa [isAbsolute] using differs

theorem route_of_isPlainName {name : Name} (plain : IsPlainName name) :
    route ⟨name⟩ = [.name name] := by
  rw [route_eq, start, isAbsolute_of_isPlainName plain, if_neg Bool.false_ne_true,
    through_name plain.1, plain.2]
  rfl

theorem isAbsolute_ofString {text : String} (unslashed : '/' ∉ text.toList) :
    (ofString text).isAbsolute = false := by
  rw [Bool.eq_false_iff]
  intro absolute
  exact unslashed (List.mem_of_mem_head? ((isAbsolute_ofString_iff text).mp absolute))

end Path

namespace Settings

def Unprefixed (settings : Settings) : Prop :=
  ∀ start, settings.embedding ≠ .after start

theorem embedding_of_load {fs : FileSystem} {path : Path} {settings : Settings}
    (loaded : load fs path = .ok settings) :
    settings.embedding = .beside ∨ ∃ start, settings.embedding = .after start := by
  obtain ⟨_, overrides, _, _, rfl⟩ := overrides_of_load loaded
  cases given : overrides.includeStart with
  | none => exact .inl (by simp [Overrides.apply, given, default])
  | some start => exact .inr ⟨start, by simp [Overrides.apply, given]⟩

theorem isAbsolute_currentPath {fs : FileSystem} {path : Path} (here : fs.currentPath = .ok path) :
    path.isAbsolute = true := by
  unfold FileSystem.currentPath at here
  split at here
  · rw [← Except.ok.inj here]
    rfl
  · simp at here

theorem absolute_of_loadForBuild {fs : FileSystem} {output : Option Path} {settings : Settings}
    (made : loadForBuild fs output = .ok settings) :
    settings.embedding = .absolute ∧ settings.base.isAbsolute = true := by
  unfold loadForBuild at made
  split at made
  · simp at made
  split at made
  · simp at made
  · rename_i package here
    rw [← Except.ok.inj made]
    exact ⟨rfl, isAbsolute_currentPath here⟩

theorem embedding_of_origin {origin : Origin} {settings : Settings}
    (made : origin.settings = .ok settings) (unprefixed : settings.Unprefixed) :
    settings.embedding = if origin.isBuildScript then .absolute else .beside := by
  have loaded {fs : FileSystem} {path : Path} (loaded : load fs path = .ok settings) :
      settings.embedding = .beside :=
    (embedding_of_load loaded).resolve_right fun ⟨start, given⟩ => unprefixed start given
  cases origin with
  | standard =>
      rw [← Outcome.ok.inj made]
      rfl
  | file fs path => exact loaded made
  | fileOrStandard fs path =>
      simp only [Origin.settings, loadOrDefault] at made
      split at made
      · exact loaded made
      · rw [← Outcome.ok.inj made]
        rfl
  | buildScript fs output =>
      exact (absolute_of_loadForBuild (Outcome.ofExcept_eq_ok_iff.mp made)).1

theorem isAbsolute_base_of_origin {origin : Origin} {settings : Settings}
    (made : origin.settings = .ok settings) (isBuildScript : origin.isBuildScript = true) :
    settings.base.isAbsolute = true := by
  cases origin with
  | buildScript fs output =>
      exact (absolute_of_loadForBuild (Outcome.ofExcept_eq_ok_iff.mp made)).2
  | standard | file _ _ | fileOrStandard _ _ => simp [Origin.isBuildScript] at isBuildScript

def scannedPath (settings : Settings) (rom : Rom) : Path :=
  settings.romDirectory.join (Path.ofString rom.name)

def embeddedFrom (settings : Settings) (directory : Name) (rom : Rom) : Path :=
  (settings.base.join ⟨directory⟩).join (Path.ofString (settings.embedPath rom))

/-- From the directory, the embedded path goes up once and then on as the scanned path does, where
both may stay in place at their start. -/
structure LeadsFrom (settings : Settings) (directory : Name) (rom : Rom) : Prop where
  absolute : settings.root.isAbsolute = true →
    settings.embeddedFrom directory rom = settings.scannedPath rom
  relative : settings.root.isAbsolute = false → ∃ rest,
    (settings.embeddedFrom directory rom).route =
      settings.base.route ++ .name directory :: .parent :: rest ∧
    (settings.scannedPath rom).route = settings.base.route ++ rest

/-- The embedded path is the one at which the scan examined the file. -/
structure IsScannedPath (settings : Settings) (rom : Rom) : Prop where
  text : settings.embedPath rom = (settings.scannedPath rom).text
  path : Path.ofString (settings.embedPath rom) = settings.scannedPath rom
  absolute : (settings.scannedPath rom).isAbsolute = true
  file : ∀ (fs : FileSystem) (roms : List Rom),
    (Scan.scan fs settings.romDirectory settings.sorted).outcome = .ok roms → rom ∈ roms →
      ∃ contents, fs.stat (Path.ofString (settings.embedPath rom)) = .ok (.file contents)

variable {settings : Settings} {rom : Rom}

theorem ofString_embedPath_beside (beside : settings.embedding = .beside)
    (rootIsText : settings.root.IsText) (rom : Rom) :
    Path.ofString (settings.embedPath rom) =
      ((Path.ofString "..").join settings.root).join (Path.ofString rom.name) := by
  rw [embedPath, beside]
  exact Path.ofString_text ((Path.IsText.join ⟨_, rfl⟩ rootIsText).join ⟨_, rfl⟩)

theorem leadsFrom_of_beside (beside : settings.embedding = .beside)
    (rootIsText : settings.root.IsText) (unslashed : '/' ∉ rom.name.toList) {directory : Name}
    (plain : Path.IsPlainName directory) : LeadsFrom settings directory rom := by
  have named := Path.isAbsolute_ofString unslashed
  have embedded := ofString_embedPath_beside beside rootIsText rom
  refine ⟨?_, ?_⟩
  · intro absolute
    have whole : ((settings.root).join (Path.ofString rom.name)).isAbsolute = true := by
      rw [Path.isAbsolute_join, absolute, Bool.true_or]
    rw [embeddedFrom, embedded, scannedPath, romDirectory, Path.join_of_isAbsolute absolute,
      Path.join_of_isAbsolute absolute, Path.join_of_isAbsolute whole]
  · intro relative
    have up : (Path.ofString "..").isAbsolute = false := rfl
    have upwards : (Path.ofString "..").route = [.parent] := by decide
    have embeddedIsRelative : (((Path.ofString "..").join settings.root).join
        (Path.ofString rom.name)).isAbsolute = false := by
      rw [Path.isAbsolute_join, Path.isAbsolute_join, up, relative, named]
      rfl
    have scanned : (settings.scannedPath rom).route =
        settings.base.route ++ (settings.root.route ++ (Path.ofString rom.name).route) := by
      rw [scannedPath, romDirectory, Path.route_join named, Path.route_join relative,
        List.append_assoc]
    refine ⟨settings.root.route ++ (Path.ofString rom.name).route, ?_, scanned⟩
    rw [embeddedFrom, embedded, Path.route_join embeddedIsRelative, Path.route_join named,
      Path.route_join relative, Path.route_join (Path.isAbsolute_of_isPlainName plain),
      Path.route_of_isPlainName plain, upwards]
    simp

theorem stat_of_scanned {fs : FileSystem} {root : Path} {sorted : Bool} {roms : List Rom}
    (scanned : (Scan.scan fs root sorted).outcome = .ok roms) (listed : rom ∈ roms) :
    ∃ contents, fs.stat (root.join (Path.ofString rom.name)) = .ok (.file contents) := by
  obtain ⟨names, _, _, rfl⟩ := (Scan.outcome_eq_ok_iff fs root sorted roms).mp scanned
  rw [(Scan.perm_arrange sorted _).mem_iff, Scan.mem_found_iff] at listed
  obtain ⟨text, rfl, _, regular⟩ := listed
  exact regular

theorem isScannedPath_of_absolute (absolute : settings.embedding = .absolute)
    (baseIsAbsolute : settings.base.isAbsolute = true) (rootIsText : settings.root.IsText)
    (baseIsText : settings.base.IsText) : IsScannedPath settings rom := by
  have written : settings.embedPath rom = (settings.scannedPath rom).text := by
    rw [embedPath, absolute]
    rfl
  have same : Path.ofString (settings.embedPath rom) = settings.scannedPath rom := by
    rw [written]
    exact Path.ofString_text ((baseIsText.join rootIsText).join ⟨_, rfl⟩)
  refine ⟨written, same, ?_, ?_⟩
  · rw [scannedPath, romDirectory, Path.isAbsolute_join, Path.isAbsolute_join, baseIsAbsolute]
    rfl
  · intro fs roms scanned listed
    rw [same]
    exact stat_of_scanned scanned listed

/-- Wherever settings without a start for embedded paths come from and however they are changed, an
embedded path leads to the scanned file: for a build script as it is, otherwise from every directory
inside the base. -/
theorem embedPath_leads_to_scanned :
    ∀ origin made changes, Origin.settings origin = .ok made →
      let settings := made.changeAll changes
      settings.Unprefixed → settings.root.IsText → settings.base.IsText →
        ∀ rom : Rom, '/' ∉ rom.name.toList →
          if origin.isBuildScript then IsScannedPath settings rom
          else ∀ directory, Path.IsPlainName directory → LeadsFrom settings directory rom := by
  intro origin made changes loaded settings unprefixed rootIsText baseIsText rom unslashed
  have kept : settings.embedding = made.embedding :=
    (embedding_changeAll made changes).resolve_right fun ⟨start, given⟩ => unprefixed start given
  have unprefixedBefore : made.Unprefixed := by
    intro start given
    exact unprefixed start (kept.trans given)
  have embedding := kept.trans (embedding_of_origin loaded unprefixedBefore)
  split
  · rename_i isBuildScript
    rw [if_pos isBuildScript] at embedding
    have baseIsAbsolute : settings.base.isAbsolute = true := by
      rw [base_changeAll]
      exact isAbsolute_base_of_origin loaded isBuildScript
    exact isScannedPath_of_absolute embedding baseIsAbsolute rootIsText baseIsText
  · rename_i notBuildScript
    rw [if_neg notBuildScript] at embedding
    exact fun directory plain => leadsFrom_of_beside embedding rootIsText unslashed plain

theorem embedPath_leads_to_scanned_carts :
    let carts := default.changeAll [.root (Path.ofString "./carts//"), .sorted false]
    let package := forBuild (Path.ofString "/app") (Path.ofString "out")
    let origin := Origin.buildScript Manifest.linkedShelf (some (Path.ofString "out"))
    let pong := Rom.ofName "PONG"
    (Origin.standard.settings = .ok default ∧ carts.Unprefixed ∧ carts.root.IsText ∧
      carts.base.IsText ∧ '/' ∉ pong.name.toList ∧ Path.IsPlainName (Utf8.encode "src") ∧
      LeadsFrom carts (Utf8.encode "src") pong) ∧
    origin.settings = .ok package ∧ package.Unprefixed ∧ package.root.IsText ∧
      package.base.IsText ∧ IsScannedPath package pong := by
  intro carts package origin pong
  have cartsUnprefixed : carts.Unprefixed := by rintro start ⟨⟩
  have packageUnprefixed : package.Unprefixed := by rintro start ⟨⟩
  have unslashed : '/' ∉ pong.name.toList := by decide
  have plain : Path.IsPlainName (Utf8.encode "src") := by decide
  have leads := embedPath_leads_to_scanned .standard default
    [.root (Path.ofString "./carts//"), .sorted false] rfl cartsUnprefixed ⟨"./carts//", rfl⟩
    ⟨"", rfl⟩ pong unslashed (Utf8.encode "src") plain
  have same := embedPath_leads_to_scanned origin package [] rfl packageUnprefixed ⟨"games", rfl⟩
    ⟨"/app", rfl⟩ pong unslashed
  exact ⟨⟨rfl, cartsUnprefixed, ⟨"./carts//", rfl⟩, ⟨"", rfl⟩, unslashed, plain, leads⟩, rfl,
    packageUnprefixed, ⟨"games", rfl⟩, ⟨"/app", rfl⟩, same⟩

end Settings

end RomCatalog
