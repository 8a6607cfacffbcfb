import RomCatalog.Proofs.Delivery
import RomCatalog.Settings.Load

/-!
What a build leaves behind. A failed build changes no file, and one that succeeds changes the
regular file to which its output path leads and nothing else. It prints the line that tells the
build tool what to watch, and that only for settings that were made for a build script.
-/

namespace RomCatalog

namespace FileSystem

/-- The file to which a path leads was written, whether it had been there or not, and nothing else
is different. -/
structure Wrote (before after : FileSystem) (path : Path) (place : Place) (contents : Bytes) :
    Prop where
  led : before.land .follow path = .ok (.vacant place) ∨
    ∃ old, before.locate .follow path = .ok (.inTree place, .file old)
  leads : after.locate .follow path = .ok (.inTree place, .file contents)
  elsewhere : ∀ other, other ≠ place → after.object? other = before.object? other
  /-- In the listings, too, all other entries are the same in the same order. -/
  order : (after.objects.filter fun entry => entry.1 ≠ place) =
    before.objects.filter fun entry => entry.1 ≠ place
  current : after.current = before.current

theorem wrote_put {fs : FileSystem} {path : Path} {place : Place} {landing : Landing}
    (contents : Bytes) (landed : fs.land .make path = .ok landing)
    (takes : fs.Takes place landing) :
    Wrote fs (fs.put place (.file contents)) path place contents where
  led := by
    have followed := land_follow_of_make landed
    cases takes with
    | vacant _ => exact .inl followed
    | file old present =>
        refine .inr ⟨old, ?_⟩
        simp only [locate, followed, objectAt?, present]
  leads := locate_put takes landed
  elsewhere := fun _ differs => object?_put_of_ne differs
  order := filter_objects_put
  current := rfl

end FileSystem

namespace Settings

/-- The ways to come by settings. A file or the environment is looked at in the state in which the
settings are made, which need not be that in which they are used. -/
inductive Origin where
  | standard
  | file (fs : FileSystem) (path : Path)
  | fileOrStandard (fs : FileSystem) (path : Path)
  | buildScript (fs : FileSystem) (output : Option Path)

def Origin.settings : Origin → Outcome Failure Settings
  | .standard => .ok default
  | .file fs path => load fs path
  | .fileOrStandard fs path => (loadOrDefault fs path).outcome
  | .buildScript fs output => .ofExcept (loadForBuild fs output)

def Origin.isBuildScript : Origin → Bool
  | .buildScript _ _ => true
  | _ => false

theorem overrides_of_load {fs : FileSystem} {path : Path} {settings : Settings}
    (loaded : load fs path = .ok settings) :
    ∃ text overrides, fs.readText path = .ok text ∧ SettingsFile.read text = .ok overrides ∧
      settings = overrides.apply { default with base := path.parent?.getD Path.empty } := by
  unfold load at loaded
  split at loaded
  · simp at loaded
  · simp at loaded
  rename_i text contents
  rw [Outcome.ofExcept_eq_ok_iff, ofText] at loaded
  split at loaded
  · rename_i overrides read
    exact ⟨text, overrides, contents, read, (Except.ok.inj loaded).symm⟩
  · simp at loaded
  · simp at loaded

theorem announcing_of_load {fs : FileSystem} {path : Path} {settings : Settings}
    (loaded : load fs path = .ok settings) : settings.announcing = false := by
  obtain ⟨_, _, _, _, rfl⟩ := overrides_of_load loaded
  rfl

theorem announcing_of_origin {origin : Origin} {settings : Settings}
    (made : origin.settings = .ok settings) : settings.announcing = origin.isBuildScript := by
  cases origin with
  | standard =>
      rw [← Outcome.ok.inj made]
      rfl
  | file fs path => exact announcing_of_load made
  | fileOrStandard fs path =>
      simp only [Origin.settings, loadOrDefault] at made
      split at made
      · exact announcing_of_load made
      · rw [← Outcome.ok.inj made]
        rfl
  | buildScript fs output =>
      simp only [Origin.settings, Outcome.ofExcept_eq_ok_iff, loadForBuild] at made
      split at made
      · simp at made
      split at made
      · simp at made
      · rw [← Except.ok.inj made]
        rfl

theorem announcing_change (settings : Settings) (change : Change) :
    (settings.change change).announcing = settings.announcing := by
  cases change <;> rfl

theorem announcing_changeAll (settings : Settings) (changes : List Change) :
    (settings.changeAll changes).announcing = settings.announcing := by
  induction changes generalizing settings with
  | nil => rfl
  | cons change rest ih =>
      rw [changeAll, List.foldl_cons]
      exact (ih (settings.change change)).trans (announcing_change settings change)

end Settings

namespace Manifest

theorem output_build (fs : FileSystem) (settings : Settings) :
    (build fs settings).output = announcement settings := by
  simp only [build]
  split
  · rfl
  · rfl
  · split
    · rfl
    · rfl
    · rfl

/-- A build ends. A failure leaves every file as it was, and success changes only the output. -/
structure Contained (fs : FileSystem) (settings : Settings) (files : FileSystem)
    (outcome : Outcome Failure Unit) : Prop where
  ended : outcome ≠ .endless
  failed : ∀ failure, outcome = .error failure → files = fs ∧
    ∃ fault, failure = .directoryAccess settings.romDirectory fault ∨
      failure = .outputNotCreated settings.destination fault
  succeeded : outcome = .ok () →
    ∃ place contents, fs.Wrote files settings.destination place contents

theorem contained_of_saves {fs files : FileSystem} {settings : Settings} {roms : List Rom}
    {outcome : Outcome Failure Unit} (regular : ¬fs.IsSpecial settings.destination)
    (saves : Saves fs settings roms files outcome) : Contained fs settings files outcome := by
  cases saves with
  | unopened _ =>
      refine ⟨by simp, ?_, by simp⟩
      rintro failure same
      exact ⟨rfl, _, .inr (Outcome.error.inj same).symm⟩
  | waiting _ isSpecial => exact absurd isSpecial regular
  | file _ landed takes =>
      refine ⟨by simp, by simp, ?_⟩
      rintro _
      exact ⟨_, _, FileSystem.wrote_put _ landed takes⟩
  | special _ _ isSpecial => exact absurd isSpecial regular

theorem contained_build {fs : FileSystem} {settings : Settings}
    (regular : ¬fs.IsSpecial settings.destination) :
    Contained fs settings (build fs settings).files (build fs settings).attempt.outcome := by
  rcases Scan.outcome_cases fs settings.romDirectory settings.sorted with
    ⟨fault, failed⟩ | ⟨roms, scanned⟩
  · obtain ⟨ended, untouched⟩ := build_of_scan_error failed
    rw [ended, untouched]
    refine ⟨by simp, ?_, by simp⟩
    intro failure same
    exact ⟨rfl, fault, .inl (Outcome.error.inj same).symm⟩
  · exact contained_of_saves regular (saves_of_scan scanned)

/-- Unless the output goes to a pipe or a device, a build touches its output file alone, and what
it prints is the announcement of settings that came from a build script, changed as they may be. -/
theorem build_contained :
    (∀ fs settings, ¬fs.IsSpecial settings.destination →
      Contained fs settings (build fs settings).files (build fs settings).attempt.outcome) ∧
    ∀ origin made changes fs, Settings.Origin.settings origin = .ok made →
      let settings := made.changeAll changes
      (build fs settings).output =
        if origin.isBuildScript then
          "cargo:rerun-if-changed=" ++ settings.romDirectory.text ++ "\n"
        else "" := by
  refine ⟨?_, ?_⟩
  · intro fs settings regular
    exact contained_build regular
  · intro origin made changes fs loaded
    have announcing : (made.changeAll changes).announcing = origin.isBuildScript :=
      (Settings.announcing_changeAll made changes).trans (Settings.announcing_of_origin loaded)
    simp only [output_build, announcement, announcing]

theorem build_contained_linkedShelf :
    let origin := Settings.Origin.buildScript linkedShelf (some (Path.ofString "/app/out"))
    let made := Settings.forBuild (Path.ofString "/app") (Path.ofString "/app/out")
    let code := text linkedSettings [Rom.ofName "PONG", Rom.ofName "roms.rs"]
    let blocked := linkedSettings.change (.output (Path.ofString "/app") "games")
    (¬linkedShelf.IsSpecial linkedSettings.destination ∧
      (build linkedShelf linkedSettings).attempt.outcome = .ok () ∧
      linkedShelf.Wrote (build linkedShelf linkedSettings).files linkedSettings.destination
        [Utf8.encode "kept", Utf8.encode "app"] (Utf8.encode code)) ∧
    (¬linkedShelf.IsSpecial blocked.destination ∧
      (build linkedShelf blocked).attempt.outcome =
        .error (.outputNotCreated blocked.destination .isDirectory) ∧
      (build linkedShelf blocked).files = linkedShelf) ∧
    origin.settings = .ok made ∧
      (build linkedShelf (made.changeAll [.sorted false, .tableName "GAMES"])).output =
        "cargo:rerun-if-changed=" ++ linkedSettings.romDirectory.text ++ "\n" := by
  intro origin made code blocked
  have regular : ¬linkedShelf.IsSpecial linkedSettings.destination :=
    FileSystem.not_isSpecial_of_stat rfl
  have ended : (build linkedShelf linkedSettings).attempt.outcome = .ok () := rfl
  have located : (build linkedShelf linkedSettings).files.locate .follow
      linkedSettings.destination =
        .ok (.inTree [Utf8.encode "kept", Utf8.encode "app"], .file (Utf8.encode code)) := rfl
  obtain ⟨place, contents, wrote⟩ :=
    (build_contained.1 linkedShelf linkedSettings regular).succeeded ended
  have same := wrote.leads.symm.trans located
  simp only [Except.ok.injEq, Prod.mk.injEq, Location.inTree.injEq, Object.file.injEq] at same
  obtain ⟨rfl, rfl⟩ := same
  have isDirectory : linkedShelf.stat blocked.destination = .ok .directory := by decide +kernel
  have blockedRegular : ¬linkedShelf.IsSpecial blocked.destination := by
    simp [FileSystem.IsSpecial, isDirectory]
  have failed : (build linkedShelf blocked).attempt.outcome =
      .error (.outputNotCreated blocked.destination .isDirectory) := by decide +kernel
  obtain ⟨untouched, _⟩ :=
    (build_contained.1 linkedShelf blocked blockedRegular).failed _ failed
  exact ⟨⟨regular, ended, wrote⟩, ⟨blockedRegular, failed, untouched⟩, rfl,
    build_contained.2 origin made [.sorted false, .tableName "GAMES"] linkedShelf rfl⟩

end Manifest

end RomCatalog
