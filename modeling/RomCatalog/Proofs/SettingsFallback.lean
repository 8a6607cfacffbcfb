import RomCatalog.Proofs.SettingsChanges

/-!
When the defaults stand in for a settings file. They do so only where nothing is found at the path;
whatever is found is loaded, and if it cannot be used that is reported, unless reading it does not
end. A file that says nothing gives the same settings as no file.
-/

namespace RomCatalog

namespace FileSystem

variable {fs : FileSystem} {path : Path}

theorem exists?_of_stat {object : Object} (found : fs.stat path = .ok object) :
    fs.exists? path = true := by
  rw [exists?, found]
  rfl

theorem not_exists?_of_stat {fault : Fault} (missing : fs.stat path = .error fault) :
    fs.exists? path = false := by
  rw [exists?, missing]
  rfl

theorem examined_of_stat {object : Object} (found : fs.stat path = .ok object) :
    (∀ fault, object ≠ .broken fault) ∧ ∀ target, object ≠ .link target := by
  unfold stat locate at found
  split at found
  · simp [Except.map] at found
  · simp [Except.map] at found
  · split at found
    · simp [Except.map] at found
    · simp [Except.map] at found
    · simp [Except.map] at found
    · rename_i whole notBroken notLink _
      obtain rfl : whole = object := Except.ok.inj found
      exact ⟨notBroken, notLink⟩

theorem readText_of_stat_error {fault : Fault} (missing : fs.stat path = .error fault) :
    fs.readText path = .error fault := by
  simp only [readText, read, missing]

theorem readText_of_stat_directory (found : fs.stat path = .ok .directory) :
    fs.readText path = .error .isDirectory := by
  simp only [readText, read, found]

/-- What is read from the path has no end: nobody writes into the pipe, or the zeros never stop. -/
def IsEndless (fs : FileSystem) (path : Path) : Prop :=
  fs.stat path = .ok .pipe ∨ fs.stat path = .ok (.device .full)

theorem read_eq_endless_iff : fs.read path = .endless ↔ fs.IsEndless path := by
  unfold read IsEndless
  cases fs.stat path with
  | error fault => simp
  | ok object =>
      cases object with
      | file _ | directory | link _ | pipe | broken _ => simp
      | device device =>
          cases device with
          | discards => simp
          | full => simp

theorem readText_eq_endless_iff : fs.readText path = .endless ↔ fs.IsEndless path := by
  rw [← read_eq_endless_iff, readText]
  cases fs.read path with
  | error fault => simp
  | endless => simp
  | ok contents =>
      dsimp only
      split
      · simp
      · simp

theorem readText_of_stat_file {contents : Bytes}
    (found : fs.stat path = .ok (.file contents)) :
    fs.readText path =
      match Utf8.decode? contents with
      | some text => .ok text
      | none => .error .notText := by
  cases decoded : Utf8.decode? contents <;> simp only [readText, read, found, decoded]

theorem readText_of_stat_text {text : String}
    (found : fs.stat path = .ok (.file (Utf8.encode text))) : fs.readText path = .ok text := by
  simp only [readText_of_stat_file found, Utf8.decode?_encode]

end FileSystem

namespace Settings

open SettingsFile SettingsText

/-- What is at the path gives no settings, and what is to be reported about it. -/
inductive Unusable (fs : FileSystem) (path : Path) : Failure → Prop
  | directory : fs.stat path = .ok .directory →
      Unusable fs path (.settingsUnreadable path .isDirectory)
  | notText {contents : Bytes} : fs.stat path = .ok (.file contents) →
      (∀ text, Utf8.encode text ≠ contents) → Unusable fs path (.settingsUnreadable path .notText)
  | notToml {text : String} : fs.stat path = .ok (.file (Utf8.encode text)) →
      Toml.document? text.toList = none → Unusable fs path (.settingsNotToml path text)
  | misfit {text : String} {entries : Toml.Entries} {misfit : Misfit} {start stop : Nat} :
      fs.stat path = .ok (.file (Utf8.encode text)) →
      Toml.document? text.toList = some entries → FirstMisfit entries misfit →
      Unusable fs path (.settingsMisfit path text misfit start stop)

variable {fs : FileSystem} {path : Path}

theorem loadOrDefault_of_stat {object : Object} (found : fs.stat path = .ok object) :
    loadOrDefault fs path = .ofOutcome (load fs path) := by
  rw [loadOrDefault, if_pos (FileSystem.exists?_of_stat found)]

theorem loadOrDefault_of_stat_error {fault : Fault} (missing : fs.stat path = .error fault) :
    (loadOrDefault fs path).outcome = .ok default := by
  rw [loadOrDefault, if_neg]
  rw [FileSystem.not_exists?_of_stat missing]
  exact Bool.false_ne_true

theorem load_of_readText_error {fault : Fault} (unread : fs.readText path = .error fault) :
    load fs path = .error (.settingsUnreadable path fault) := by
  simp only [load, unread]

theorem load_eq_endless_iff : load fs path = .endless ↔ fs.IsEndless path := by
  rw [← FileSystem.readText_eq_endless_iff, load]
  cases fs.readText path <;> simp

theorem load_of_discards (found : fs.stat path = .ok (.device .discards)) :
    ∃ settings, load fs path = .ok settings := by
  have contents : fs.readText path = .ok "" := by
    have empty : Utf8.decode? [] = some "" := Utf8.decode?_encode ""
    simp only [FileSystem.readText, FileSystem.read, found, empty]
  have valid : Toml.document? "".toList = some [] := rfl
  exact ⟨_, load_of_holds contents valid .nil⟩

theorem outcome_loadOrDefault_eq_endless_iff :
    (loadOrDefault fs path).outcome = .endless ↔ fs.IsEndless path := by
  cases found : fs.stat path with
  | error fault => simp [loadOrDefault_of_stat_error found, FileSystem.IsEndless, found]
  | ok object =>
      rw [loadOrDefault_of_stat found]
      exact load_eq_endless_iff

theorem unusable_of_load {object : Object} (found : fs.stat path = .ok object) {failure : Failure}
    (failed : load fs path = .error failure) : Unusable fs path failure := by
  cases object with
  | directory =>
      have unread := FileSystem.readText_of_stat_directory found
      rw [load_of_readText_error unread, Outcome.error.injEq] at failed
      subst failed
      exact .directory found
  | file contents =>
      have read := FileSystem.readText_of_stat_file found
      cases decoded : Utf8.decode? contents with
      | none =>
          rw [decoded] at read
          rw [load_of_readText_error read, Outcome.error.injEq] at failed
          subst failed
          exact .notText found (Utf8.decode?_eq_none_iff.mp decoded)
      | some text =>
          obtain rfl := Utf8.decode?_eq_some_iff.mp decoded
          rw [decoded] at read
          cases valid : Toml.document? text.toList with
          | none =>
              simp only [load_of_readText read, ofText, SettingsFile.read, valid,
                Outcome.ofExcept, Outcome.error.injEq] at failed
              subst failed
              exact .notToml found valid
          | some entries =>
              obtain ⟨misfit, start, stop, first, rfl⟩ :=
                (decided_of_document read valid).rejected failure failed
              exact .misfit found valid first
  | link target => exact absurd rfl ((FileSystem.examined_of_stat found).2 target)
  | broken fault => exact absurd rfl ((FileSystem.examined_of_stat found).1 fault)
  | pipe => simp [load_eq_endless_iff.mpr (.inl found)] at failed
  | device device =>
      cases device with
      | discards =>
          obtain ⟨settings, loaded⟩ := load_of_discards found
          simp [loaded] at failed
      | full => simp [load_eq_endless_iff.mpr (.inr found)] at failed

theorem load_of_unusable {failure : Failure} (unusable : Unusable fs path failure) :
    (∃ object, fs.stat path = .ok object) ∧ ∃ reported, load fs path = .error reported := by
  cases unusable with
  | directory found =>
      have unread := FileSystem.readText_of_stat_directory found
      exact ⟨⟨_, found⟩, _, load_of_readText_error unread⟩
  | @notText contents found undecodable =>
      have read := FileSystem.readText_of_stat_file found
      rw [Utf8.decode?_eq_none_iff.mpr undecodable] at read
      exact ⟨⟨_, found⟩, _, load_of_readText_error read⟩
  | @notToml text found invalid =>
      have read := FileSystem.readText_of_stat_text found
      refine ⟨⟨_, found⟩, .settingsNotToml path text, ?_⟩
      simp only [load_of_readText read, ofText, SettingsFile.read, invalid, Outcome.ofExcept]
  | misfit found valid first =>
      have read := FileSystem.readText_of_stat_text found
      obtain ⟨start, stop, failed⟩ := load_of_firstMisfit read valid first
      exact ⟨⟨_, found⟩, _, failed⟩

def SaysNothing (text : String) : Prop :=
  Choice.Written ⟨none, none, none, none, none⟩ text

theorem load_of_saysNothing {text : String} (nothing : SaysNothing text)
    (contents : fs.readText path = .ok text) :
    load fs path = .ok { default with base := path.parent?.getD Path.empty } := by
  simp only [load_of_readText contents, ofText, read_written nothing, Outcome.ofExcept]
  rfl

/-- Where something is found at the path, loading it decides, and it is reported if and only if it
cannot be used; only what cannot be read to an end is waited for. Otherwise the defaults hold. At a
path without a directory part a file that says nothing is as good as none, whatever is changed after
that. -/
theorem loadOrDefault_decided :
    ∀ fs path,
      (∀ object, FileSystem.stat fs path = .ok object →
        loadOrDefault fs path = .ofOutcome (load fs path)) ∧
      ((loadOrDefault fs path).outcome = .endless ↔ FileSystem.IsEndless fs path) ∧
      (∀ fault, FileSystem.stat fs path = .error fault →
        (loadOrDefault fs path).outcome = .ok default ∧
          load fs path = .error (.settingsUnreadable path fault)) ∧
      (∀ failure, (loadOrDefault fs path).outcome = .error failure →
        Unusable fs path failure) ∧
      ((∃ failure, Unusable fs path failure) →
        ∃ failure, (loadOrDefault fs path).outcome = .error failure) ∧
      ∀ text, SaysNothing text → FileSystem.stat fs path = .ok (.file (Utf8.encode text)) →
        path.parent?.getD Path.empty = Path.empty →
        ∀ other fault, FileSystem.stat other path = .error fault →
          ∃ silent standard, (loadOrDefault fs path).outcome = .ok silent ∧
            (loadOrDefault other path).outcome = .ok standard ∧
            ∀ changes, silent.changeAll changes = standard.changeAll changes := by
  intro fs path
  refine ⟨fun object => loadOrDefault_of_stat, outcome_loadOrDefault_eq_endless_iff, ?_, ?_, ?_, ?_⟩
  · intro fault missing
    have unread := FileSystem.readText_of_stat_error missing
    exact ⟨loadOrDefault_of_stat_error missing, load_of_readText_error unread⟩
  · intro failure failed
    cases found : fs.stat path with
    | error fault => simp [loadOrDefault_of_stat_error found] at failed
    | ok object =>
        rw [loadOrDefault_of_stat found] at failed
        exact unusable_of_load found failed
  · rintro ⟨failure, unusable⟩
    obtain ⟨⟨object, found⟩, reported, failed⟩ := load_of_unusable unusable
    exact ⟨reported, by rw [loadOrDefault_of_stat found]; exact failed⟩
  · intro text nothing found bare other fault missing
    have loaded := load_of_saysNothing nothing (FileSystem.readText_of_stat_text found)
    rw [bare] at loaded
    refine ⟨_, default, ?_, loadOrDefault_of_stat_error missing, fun _ => rfl⟩
    rw [loadOrDefault_of_stat found]
    exact loaded

def silentText : String := "\uFEFF# nothing yet\r\n \t"

theorem silentText_saysNothing : SaysNothing silentText := by
  have commented : Passed ([] ++ '#' :: " nothing yet".toList) := .comment (by decide) (by decide)
  have blank : Passed [' ', '\t'] := .blanks (by decide)
  exact .marked (List.Perm.refl _) (.passed commented .long (.lastPassed blank)) (by decide +kernel)

def silentShelf : FileSystem where
  objects :=
    [([Utf8.encode "app"], .directory),
      ([Utf8.encode "roms.toml", Utf8.encode "app"], .link (Path.ofString "../kept")),
      ([Utf8.encode "named.toml", Utf8.encode "app"],
        .file (Utf8.encode "table_name = 'X' # kept\n")),
      ([Utf8.encode "loop.toml", Utf8.encode "app"], .link (Path.ofString "loop.toml")),
      ([Utf8.encode "games.toml", Utf8.encode "app"], .directory),
      ([Utf8.encode "pipe.toml", Utf8.encode "app"], .pipe),
      ([Utf8.encode "kept"], .file (Utf8.encode silentText))]
  current := .inTree [Utf8.encode "app"]
  unique := by decide +kernel

def emptyShelf : FileSystem where
  objects := []
  current := .inTree []
  unique := List.nodup_nil

theorem loadOrDefault_decided_silent :
    let roms := Path.ofString "roms.toml"
    let named := Path.ofString "named.toml"
    let loop := Path.ofString "loop.toml"
    let games := Path.ofString "games.toml"
    let pipe := Path.ofString "pipe.toml"
    let refused : Failure := .settingsUnreadable games .isDirectory
    (silentShelf.stat roms = .ok (.file (Utf8.encode silentText)) ∧
      loadOrDefault silentShelf roms = .ofOutcome (load silentShelf roms)) ∧
    (load silentShelf named = .ok { default with tableName := "X" } ∧
      (loadOrDefault silentShelf named).outcome = .ok { default with tableName := "X" }) ∧
    (silentShelf.IsEndless pipe ∧ (loadOrDefault silentShelf pipe).outcome = .endless) ∧
    (silentShelf.stat loop = .error .tooManyLinks ∧
      (loadOrDefault silentShelf loop).outcome = .ok default) ∧
    ((loadOrDefault silentShelf games).outcome = .error refused ∧
      Unusable silentShelf games refused ∧
      ∃ failure, (loadOrDefault silentShelf games).outcome = .error failure) ∧
    SaysNothing silentText ∧ roms.parent?.getD Path.empty = Path.empty ∧
      emptyShelf.stat roms = .error .notFound ∧
      ∃ silent standard, (loadOrDefault silentShelf roms).outcome = .ok silent ∧
        (loadOrDefault emptyShelf roms).outcome = .ok standard ∧
        ∀ changes, silent.changeAll changes = standard.changeAll changes := by
  intro roms named loop games pipe refused
  have found : silentShelf.stat roms = .ok (.file (Utf8.encode silentText)) := rfl
  have stands : silentShelf.stat named =
      .ok (.file (Utf8.encode "table_name = 'X' # kept\n")) := rfl
  have loaded : load silentShelf named = .ok { default with tableName := "X" } := rfl
  have endless : silentShelf.IsEndless pipe := .inl rfl
  have looping : silentShelf.stat loop = .error .tooManyLinks := rfl
  have failed : (loadOrDefault silentShelf games).outcome = .error refused := rfl
  have missing : emptyShelf.stat roms = .error .notFound := rfl
  have bare : roms.parent?.getD Path.empty = Path.empty := by decide
  obtain ⟨present, _, _, _, _, silence⟩ := loadOrDefault_decided silentShelf roms
  obtain ⟨counts, _⟩ := loadOrDefault_decided silentShelf named
  obtain ⟨_, waits, _⟩ := loadOrDefault_decided silentShelf pipe
  obtain ⟨_, _, absent, _⟩ := loadOrDefault_decided silentShelf loop
  obtain ⟨_, _, _, explained, reported, _⟩ := loadOrDefault_decided silentShelf games
  have unusable := explained refused failed
  have kept :
      (loadOrDefault silentShelf named).outcome = .ok { default with tableName := "X" } := by
    rw [counts _ stands]
    exact loaded
  exact ⟨⟨found, present _ found⟩, ⟨loaded, kept⟩, ⟨endless, waits.mpr endless⟩,
    ⟨looping, (absent _ looping).1⟩, ⟨failed, unusable, reported ⟨refused, unusable⟩⟩,
    silentText_saysNothing, bare, missing,
    silence silentText silentText_saysNothing found bare emptyShelf _ missing⟩

end Settings

end RomCatalog
