import RomCatalog.Proofs.EmbedPath
import RomCatalog.Proofs.Scan

/-!
Every embedded path is one and the same start with the name behind it. The start comes from the
settings alone. It may hold replacement characters for bytes that are no text, but these bytes end
before the name, which is always shown as it is.
-/

namespace RomCatalog.Settings

def embedBytes (settings : Settings) : Bytes :=
  match settings.embedding with
  | .after start => Utf8.encode start
  | .beside => (((Path.ofString "..").join settings.root).join Path.empty).bytes
  | .absolute => (settings.romDirectory.join Path.empty).bytes

def embedStart (settings : Settings) : String :=
  Utf8.decodeLossy settings.embedBytes

/-- The embedded path shows the bytes of the start and of the name. It is divided where the name
begins, and each part that is ill-formed lies before that. -/
structure StartsName (settings : Settings) (rom : Rom) : Prop where
  path : settings.embedPath rom = settings.embedStart ++ rom.name
  bytes : settings.embedPath rom =
    Utf8.decodeLossy (settings.embedBytes ++ Utf8.encode rom.name)
  parts : Utf8.decode (settings.embedBytes ++ Utf8.encode rom.name) =
    Utf8.decode settings.embedBytes ++ rom.name.toList.map some

theorem embedPath_eq_decodeLossy (settings : Settings) {rom : Rom}
    (relative : (Path.ofString rom.name).isAbsolute = false) :
    settings.embedPath rom =
      Utf8.decodeLossy (settings.embedBytes ++ Utf8.encode rom.name) := by
  unfold embedPath embedBytes
  cases settings.embedding with
  | after start =>
      dsimp only
      rw [Utf8.decodeLossy_append_encode, Utf8.decodeLossy_encode]
  | beside =>
      dsimp only
      rw [Path.join_of_not_isAbsolute relative]
      rfl
  | absolute =>
      dsimp only
      rw [Path.join_of_not_isAbsolute relative]
      rfl

theorem startsName_of_relative (settings : Settings) {rom : Rom}
    (relative : rom.name.toList.head? ≠ some '/') : StartsName settings rom := by
  have unrooted : (Path.ofString rom.name).isAbsolute = false := by
    rw [Bool.eq_false_iff, Ne, Path.isAbsolute_ofString_iff]
    exact relative
  have shown := settings.embedPath_eq_decodeLossy unrooted
  refine ⟨?_, shown, ?_⟩
  · rw [shown, Utf8.decodeLossy_append_encode]
    rfl
  · exact Utf8.decodeFrom_append_encodeChars .start trivial settings.embedBytes rom.name.toList

theorem embedPath_eq_iff (settings : Settings) {left right : Rom}
    (leftIsRelative : left.name.toList.head? ≠ some '/')
    (rightIsRelative : right.name.toList.head? ≠ some '/') :
    settings.embedPath left = settings.embedPath right ↔ left.name = right.name := by
  rw [(settings.startsName_of_relative leftIsRelative).path,
    (settings.startsName_of_relative rightIsRelative).path, String.append_right_inj]

theorem nodup_names_of_scan {fs : FileSystem} {root : Path} {sorted : Bool} {roms : List Rom}
    (scanned : (Scan.scan fs root sorted).outcome = .ok roms) : (roms.map Rom.name).Nodup := by
  obtain ⟨names, listed, _, rfl⟩ := (Scan.outcome_eq_ok_iff fs root sorted roms).mp scanned
  have arranged := Scan.perm_arrange sorted (Scan.found fs root names)
  rw [(arranged.map Rom.name).nodup_iff]
  exact Scan.nodup_map_found fs root (fun _ _ same => same) (FileSystem.nodup_of_list listed)

/-- Settings have one start for all names that are relative: embedded paths are as distinct as the
names, no part of a name is lost in what cannot be shown, and scanned files get distinct paths. -/
theorem embedPath_is_start_and_name :
    ∀ settings : Settings,
      (∀ rom : Rom, rom.name.toList.head? ≠ some '/' → StartsName settings rom) ∧
      (∀ left right : Rom, left.name.toList.head? ≠ some '/' →
        right.name.toList.head? ≠ some '/' →
          (settings.embedPath left = settings.embedPath right ↔ left.name = right.name)) ∧
      ∀ fs root sorted roms, (Scan.scan fs root sorted).outcome = .ok roms →
        (∀ rom ∈ roms, rom.name.toList.head? ≠ some '/') →
          (roms.map settings.embedPath).Nodup := by
  intro settings
  refine ⟨?_, ?_, ?_⟩
  · intro rom relative
    exact settings.startsName_of_relative relative
  · intro left right leftIsRelative rightIsRelative
    exact settings.embedPath_eq_iff leftIsRelative rightIsRelative
  · intro fs root sorted roms scanned relative
    have distinct := nodup_names_of_scan scanned
    rw [List.Nodup, List.pairwise_map] at distinct ⊢
    refine distinct.imp_of_mem ?_
    intro left right leftMember rightMember different same
    have leftIsRelative := relative left leftMember
    have rightIsRelative := relative right rightMember
    exact different ((settings.embedPath_eq_iff leftIsRelative rightIsRelative).mp same)

def brokenShelf : FileSystem where
  objects :=
    [([[0x72, 0xE2, 0x82]], .directory),
      ([Utf8.encode "é.ch8", [0x72, 0xE2, 0x82]], .file []),
      ([Utf8.encode "PONG", [0x72, 0xE2, 0x82]], .file [1])]
  current := .inTree []
  unique := by decide +kernel

theorem embedPath_is_start_and_name_broken :
    let settings := default.changeAll [.root ⟨[0x72, 0xE2, 0x82]⟩, .sorted false]
    let pong := Rom.ofName "PONG"
    let accented := Rom.ofName "é.ch8"
    (Scan.scan brokenShelf settings.romDirectory settings.sorted).outcome = .ok [accented, pong] ∧
      settings.embedStart = "../r\uFFFD/" ∧ StartsName settings accented ∧
      (settings.embedPath pong = settings.embedPath accented ↔ pong.name = accented.name) ∧
      ([accented, pong].map settings.embedPath).Nodup := by
  intro settings pong accented
  have relative : ∀ rom ∈ [accented, pong], rom.name.toList.head? ≠ some '/' := by decide
  have scanned : (Scan.scan brokenShelf settings.romDirectory settings.sorted).outcome =
      .ok [accented, pong] := by decide +kernel
  obtain ⟨starts, distinct, scanning⟩ := embedPath_is_start_and_name settings
  refine ⟨scanned, by decide +kernel, ?_, ?_, ?_⟩
  · exact starts accented (relative accented (by simp))
  · exact distinct pong accented (relative pong (by simp)) (relative accented (by simp))
  · exact scanning _ _ _ _ scanned relative

end RomCatalog.Settings
