import RomCatalog.Manifest.Output
import RomCatalog.Proofs.Scan
import RomCatalog.Proofs.Writing

/-!
A manifest leaves the program as text, on standard output and in a file. Composing, printing and
building each scan the directory for themselves, and they agree: either all of them fail as the
scan did and leave nothing behind, or all of them deliver one and the same text.
-/

namespace RomCatalog.Manifest

variable {fs : FileSystem} {settings : Settings}

theorem compose_of_scan_error {failure : Failure}
    (failed : (Scan.scan fs settings.romDirectory settings.sorted).outcome = .error failure) :
    compose fs settings =
      ⟨(Scan.scan fs settings.romDirectory settings.sorted).journal, .error failure⟩ := by
  simp only [compose, bind, Attempt.andThen, failed]

theorem compose_of_scan {roms : List Rom}
    (scanned : (Scan.scan fs settings.romDirectory settings.sorted).outcome = .ok roms) :
    compose fs settings =
      ⟨(Scan.scan fs settings.romDirectory settings.sorted).journal ++
        [⟨.info, toString roms.length ++ " ROMs in " ++ settings.romDirectory.text⟩],
        .ok (text settings roms)⟩ := by
  simp only [compose, bind, Attempt.andThen, scanned, Attempt.note, pure, Attempt.done,
    List.append_nil]

theorem outcome_compose (fs : FileSystem) (settings : Settings) :
    (∃ fault, (compose fs settings).outcome =
      .error (.directoryAccess settings.romDirectory fault)) ∨
    ∃ code, (compose fs settings).outcome = .ok code := by
  rcases Scan.outcome_cases fs settings.romDirectory settings.sorted with
    ⟨fault, failed⟩ | ⟨roms, scanned⟩
  · exact .inl ⟨fault, by rw [compose_of_scan_error failed]⟩
  · exact .inr ⟨_, by rw [compose_of_scan scanned]⟩

theorem print_of_compose_error {failure : Failure}
    (failed : (compose fs settings).outcome = .error failure) (full : Bool) :
    print fs settings full = ⟨"", (compose fs settings).journal, .error failure⟩ := by
  simp only [print, failed]

theorem print_of_compose {code : String} (composed : (compose fs settings).outcome = .ok code) :
    print fs settings false = ⟨code, (compose fs settings).journal, .ok ()⟩ := by
  simp only [print, composed, Bool.false_eq_true, if_false]

inductive Saves (fs : FileSystem) (settings : Settings) (roms : List Rom) :
    FileSystem → Outcome Failure Unit → Prop
  | unopened {fault : Fault} : fs.create settings.destination = .error fault →
      Saves fs settings roms fs (.error (.outputNotCreated settings.destination fault))
  | file {opened : FileSystem} {place : Place} {landing : Landing} :
      fs.create settings.destination = .ok (opened, .file place) →
      fs.land .make settings.destination = .ok landing → fs.Takes place landing →
      Saves fs settings roms (fs.put place (.file (Utf8.encode (text settings roms)))) (.ok ())
  | waiting : fs.create settings.destination = .endless →
      fs.IsSpecial settings.destination → Saves fs settings roms fs .endless
  | special {opened : FileSystem} {sink : Sink} {outcome : Outcome Failure Unit} :
      fs.create settings.destination = .ok (opened, sink) → (∀ place, sink ≠ .file place) →
      fs.IsSpecial settings.destination → Saves fs settings roms fs outcome

theorem saves_save (roms : List Rom) :
    Saves fs settings roms (save fs settings roms).1 (save fs settings roms).2 := by
  unfold save
  split
  · rename_i fault unopened
    exact .unopened unopened
  · rename_i waits
    exact .waiting waits (.inl (FileSystem.stat_of_create_endless waits))
  · rename_i opened sink created
    have opens := FileSystem.opens_of_create created
    cases opens with
    | file landed takes =>
        simp only [FileSystem.write, FileSystem.put_put]
        exact .file created landed takes
    | special isSpecial notFile =>
        split
        · exact .special created notFile isSpecial
        · rename_i written wrote
          rw [FileSystem.files_of_write notFile wrote]
          exact .special created notFile isSpecial

theorem build_of_scan_error {failure : Failure}
    (failed : (Scan.scan fs settings.romDirectory settings.sorted).outcome = .error failure) :
    (build fs settings).attempt.outcome = .error failure ∧ (build fs settings).files = fs := by
  simp only [build, failed, and_self]

theorem saves_of_scan {roms : List Rom}
    (scanned : (Scan.scan fs settings.romDirectory settings.sorted).outcome = .ok roms) :
    Saves fs settings roms (build fs settings).files (build fs settings).attempt.outcome := by
  have saves : Saves fs settings roms (save fs settings roms).1 (save fs settings roms).2 :=
    saves_save roms
  simp only [build, scanned]
  split
  · rename_i saved
    rw [saved] at saves
    exact saves
  · rename_i saved
    rw [saved] at saves
    exact saves
  · rename_i saved
    rw [saved] at saves
    exact saves

theorem written_of_saves {roms : List Rom} {files opened : FileSystem} {place : Place}
    {outcome : Outcome Failure Unit} (saves : Saves fs settings roms files outcome)
    (created : fs.create settings.destination = .ok (opened, .file place)) :
    ∃ landing, fs.land .make settings.destination = .ok landing ∧ fs.Takes place landing ∧
      files = fs.put place (.file (Utf8.encode (text settings roms))) ∧ outcome = .ok () := by
  cases saves with
  | unopened failed => simp [failed] at created
  | waiting waits _ => simp [waits] at created
  | special made notFile _ =>
      rw [made] at created
      simp only [Outcome.ok.injEq, Prod.mk.injEq] at created
      exact absurd created.2 (notFile place)
  | file made landed takes =>
      rw [made] at created
      simp only [Outcome.ok.injEq, Prod.mk.injEq, Sink.file.injEq] at created
      obtain ⟨_, rfl⟩ := created
      exact ⟨_, landed, takes, rfl, rfl⟩

/-- All three ways end with the failure, nothing is printed and no file is touched. -/
structure Refused (fs : FileSystem) (settings : Settings) (failure : Failure) : Prop where
  composed : (compose fs settings).outcome = .error failure
  printed : ∀ full, (print fs settings full).attempt.outcome = .error failure ∧
    (print fs settings full).output = ""
  built : (build fs settings).attempt.outcome = .error failure ∧ (build fs settings).files = fs

/-- The text is what is composed, what is printed and, if the output path can be opened as a
regular file, all that this file holds afterwards. -/
structure Delivered (fs : FileSystem) (settings : Settings) (code : String) : Prop where
  composed : (compose fs settings).outcome = .ok code
  printed : (print fs settings false).attempt.outcome = .ok () ∧
    (print fs settings false).output = code
  built : ∀ opened place, fs.create settings.destination = .ok (opened, .file place) →
    (build fs settings).attempt.outcome = .ok () ∧
      (build fs settings).files.object? place = some (.file (Utf8.encode code)) ∧
      (build fs settings).files.read settings.destination = .ok (Utf8.encode code)

theorem refused_of_scan_error {failure : Failure}
    (failed : (Scan.scan fs settings.romDirectory settings.sorted).outcome = .error failure) :
    Refused fs settings failure := by
  have composed : (compose fs settings).outcome = .error failure := by
    rw [compose_of_scan_error failed]
  refine ⟨composed, ?_, ?_⟩
  · intro full
    rw [print_of_compose_error composed full]
    exact ⟨rfl, rfl⟩
  · exact build_of_scan_error failed

theorem read_of_locate {path : Path} {location : Location} {contents : Bytes}
    (found : fs.locate .follow path = .ok (location, .file contents)) :
    fs.read path = .ok contents := by
  simp only [FileSystem.read, FileSystem.stat, found, Except.map]

theorem delivered_of_scan {roms : List Rom}
    (scanned : (Scan.scan fs settings.romDirectory settings.sorted).outcome = .ok roms) :
    Delivered fs settings (text settings roms) := by
  have composed : (compose fs settings).outcome = .ok (text settings roms) := by
    rw [compose_of_scan scanned]
  refine ⟨composed, ?_, ?_⟩
  · rw [print_of_compose composed]
    exact ⟨rfl, rfl⟩
  · intro opened place created
    obtain ⟨landing, landed, takes, written, ended⟩ :=
      written_of_saves (saves_of_scan scanned) created
    rw [written]
    exact ⟨ended, FileSystem.object?_put_self takes.ne_nil,
      read_of_locate (FileSystem.locate_put takes landed)⟩

/-- Either the scan fails and so do all three ways out, or all three deliver the same text. -/
theorem refused_or_delivered (fs : FileSystem) (settings : Settings) :
    (∃ fault,
      (Scan.scan fs settings.romDirectory settings.sorted).outcome =
        .error (.directoryAccess settings.romDirectory fault) ∧
      Refused fs settings (.directoryAccess settings.romDirectory fault)) ∨
    ∃ roms,
      (Scan.scan fs settings.romDirectory settings.sorted).outcome = .ok roms ∧
      Delivered fs settings (text settings roms) := by
  rcases Scan.outcome_cases fs settings.romDirectory settings.sorted with
    ⟨fault, failed⟩ | ⟨roms, scanned⟩
  · exact .inl ⟨fault, failed, refused_of_scan_error failed⟩
  · exact .inr ⟨roms, scanned, delivered_of_scan scanned⟩

def linkedShelf : FileSystem where
  objects :=
    [([Utf8.encode "app"], .directory),
      ([Utf8.encode "games", Utf8.encode "app"], .directory),
      ([Utf8.encode "PONG", Utf8.encode "games", Utf8.encode "app"], .file [1]),
      ([Utf8.encode "roms.rs", Utf8.encode "games", Utf8.encode "app"],
        .link (Path.ofString "../kept")),
      ([Utf8.encode "kept", Utf8.encode "app"], .file (List.replicate 400 65)),
      ([Utf8.encode "out", Utf8.encode "app"], .link (Path.ofString "games"))]
  current := .inTree [Utf8.encode "app"]
  unique := by decide +kernel

def linkedSettings : Settings :=
  (Settings.forBuild (Path.ofString "/app") (Path.ofString "/app/out")).changeAll
    [.sorted false, .tableName "GAMES"]

example : (build linkedShelf linkedSettings).files.read (Path.ofString "kept") =
    .ok (Utf8.encode (text linkedSettings [Rom.ofName "PONG", Rom.ofName "roms.rs"])) := rfl

end RomCatalog.Manifest
