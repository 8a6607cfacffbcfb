import RomCatalog.Command
import RomCatalog.Proofs.Delivery
import RomCatalog.Proofs.Diagnostics
import RomCatalog.Proofs.SettingsFallback

/-!
The command prints a whole manifest or nothing. It has no exit only where its settings cannot be
read to an end, and the threshold that is asked for decides about the log and about nothing else.
-/

namespace RomCatalog

namespace Diagnostics

variable (complaint : String → String) {failure : Failure}

theorem isReport_of_load {fs : FileSystem} {path : Path}
    (failed : Settings.load fs path = .error failure) :
    IsReport complaint failure (failure.report complaint) := by
  unfold Settings.load at failed
  split at failed
  · rename_i fault _
    rw [← Outcome.error.inj failed]
    exact isReport_of_told complaint (.settingsUnreadable path fault)
  · simp at failed
  · rename_i text _
    rw [Outcome.ofExcept_eq_error_iff, Settings.ofText] at failed
    split at failed
    · simp at failed
    · rw [← Except.error.inj failed]
      exact isReport_of_told complaint (.settingsNotToml path text)
    · rename_i misfit start stop _
      rw [← Except.error.inj failed]
      exact isReport_of_told complaint (.settingsMisfit path text misfit start stop)

end Diagnostics

namespace Threshold

def name : Threshold → String
  | .off => "off"
  | .error => "error"
  | .warn => "warn"
  | .info => "info"
  | .debug => "debug"
  | .trace => "trace"

inductive Asked : Option String → Threshold → Prop
  | missing : Asked none .warn
  | empty : Asked (some "") .warn
  | named {setting : String} {threshold : Threshold} :
      setting.map Char.toLower = threshold.name → Asked (some setting) threshold

theorem ofSetting_of_asked {setting : Option String} {threshold : Threshold}
    (asked : Asked setting threshold) : ofSetting setting = threshold := by
  cases asked with
  | missing => simp [ofSetting, named?, default]
  | empty => simp [ofSetting, named?, default]
  | named small =>
      simp only [ofSetting, Option.getD_some, named?, small]
      cases threshold <;> rfl

end Threshold

namespace Command

inductive WorksWith (fs : FileSystem) : Settings → List Record → Prop
  | file {settings : Settings} : fs.exists? settingsPath = true →
      Settings.load fs settingsPath = .ok settings → WorksWith fs settings []
  | standard : fs.exists? settingsPath = false →
      WorksWith fs Settings.default
        [⟨.debug, "no " ++ settingsPath.text ++ " found, using defaults"⟩]

/-- How a run ends, with its records, code, output and report: it prints a whole manifest, or it
has no settings or nothing to print and reports that. -/
inductive Ends (complaint : String → String) (fs : FileSystem) :
    List Record → Nat → String → String → Prop
  | manifest {settings : Settings} {loading scanning : List Record} {code : String} :
      WorksWith fs settings loading → Manifest.compose fs settings = ⟨scanning, .ok code⟩ →
      Ends complaint fs (loading ++ scanning) 0 code ""
  | unsettled {failure : Failure} {report : String} : fs.exists? settingsPath = true →
      Settings.load fs settingsPath = .error failure →
      Diagnostics.IsReport complaint failure report → Ends complaint fs [] 1 "" report
  | unscanned {settings : Settings} {loading scanning : List Record} {failure : Failure}
      {report : String} :
      WorksWith fs settings loading → Manifest.compose fs settings = ⟨scanning, .error failure⟩ →
      Diagnostics.IsReport complaint failure report →
      Ends complaint fs (loading ++ scanning) 1 "" report

variable (complaint : String → String) (fs : FileSystem)

theorem Ends.report_eq_empty {complaint : String → String} {fs : FileSystem}
    {records : List Record} {output report : String}
    (ends : Ends complaint fs records 0 output report) : report = "" := by
  cases ends
  rfl

theorem listRoms_of_isEndless (endless : fs.IsEndless settingsPath) :
    listRoms fs = ⟨"", (Settings.loadOrDefault fs settingsPath).journal, .endless⟩ := by
  have waits := Settings.outcome_loadOrDefault_eq_endless_iff.mpr endless
  simp only [listRoms, waits]

theorem worksWith_of_loadOrDefault {settings : Settings}
    (loaded : (Settings.loadOrDefault fs settingsPath).outcome = .ok settings) :
    WorksWith fs settings (Settings.loadOrDefault fs settingsPath).journal := by
  unfold Settings.loadOrDefault at loaded ⊢
  split at loaded
  · rename_i present
    rw [if_pos present]
    exact .file present loaded
  · rename_i absent
    rw [if_neg absent]
    rw [Bool.not_eq_true] at absent
    rw [← Outcome.ok.inj loaded]
    exact .standard absent

theorem load_of_loadOrDefault_error {failure : Failure}
    (failed : (Settings.loadOrDefault fs settingsPath).outcome = .error failure) :
    (Settings.loadOrDefault fs settingsPath).journal = [] ∧
      fs.exists? settingsPath = true ∧ Settings.load fs settingsPath = .error failure := by
  unfold Settings.loadOrDefault at failed ⊢
  split at failed
  · rename_i present
    rw [if_pos present]
    exact ⟨rfl, present, failed⟩
  · simp at failed

theorem listRoms_cases (ending : ¬fs.IsEndless settingsPath) :
    (∃ records code, listRoms fs = ⟨code, records, .ok ()⟩ ∧
      Ends complaint fs records 0 code "") ∨
    ∃ records failure, listRoms fs = ⟨"", records, .error failure⟩ ∧
      Ends complaint fs records 1 "" (failure.report complaint) := by
  cases loaded : (Settings.loadOrDefault fs settingsPath).outcome with
  | endless => exact absurd (Settings.outcome_loadOrDefault_eq_endless_iff.mp loaded) ending
  | error failure =>
      obtain ⟨nothing, present, unread⟩ := load_of_loadOrDefault_error fs loaded
      have report := Diagnostics.isReport_of_load complaint unread
      refine .inr ⟨[], failure, ?_, .unsettled present unread report⟩
      simp only [listRoms, loaded, nothing]
  | ok settings =>
      have works := worksWith_of_loadOrDefault fs loaded
      rcases Manifest.outcome_compose fs settings with ⟨fault, failed⟩ | ⟨code, delivered⟩
      · have composed : Manifest.compose fs settings =
            ⟨(Manifest.compose fs settings).journal,
              .error (.directoryAccess settings.romDirectory fault)⟩ := by
          rw [← failed]
        have report := Diagnostics.isReport_of_told complaint
          (.directoryAccess settings.romDirectory fault)
        refine .inr ⟨_, _, ?_, .unscanned works composed report⟩
        simp only [listRoms, loaded, Manifest.print_of_compose_error failed]
      · have composed : Manifest.compose fs settings =
            ⟨(Manifest.compose fs settings).journal, .ok code⟩ := by
          rw [← delivered]
        refine .inl ⟨_, code, ?_, .manifest works composed⟩
        simp only [listRoms, loaded, Manifest.print_of_compose delivered]

theorem exit?_of_ok {printed : Manifest.Printed} (succeeded : printed.attempt.outcome = .ok ())
    (threshold : Threshold) :
    exit? complaint threshold printed =
      some ⟨0, printed.output, Journal.shown threshold printed.attempt.journal⟩ := by
  simp only [exit?, succeeded]

theorem exit?_of_error {printed : Manifest.Printed} {failure : Failure}
    (failed : printed.attempt.outcome = .error failure) (threshold : Threshold) :
    exit? complaint threshold printed =
      some ⟨1, printed.output,
        Journal.shown threshold printed.attempt.journal ++ failure.report complaint⟩ := by
  simp only [exit?, failed]

theorem run?_eq_none_iff (threshold : Threshold) :
    run? complaint fs threshold = none ↔ fs.IsEndless settingsPath := by
  by_cases endless : fs.IsEndless settingsPath
  · simp [run?, exit?, listRoms_of_isEndless fs endless, endless]
  · rcases listRoms_cases complaint fs endless with ⟨_, _, listed, _⟩ | ⟨_, _, listed, _⟩
    · simp [run?, exit?, listed, endless]
    · simp [run?, exit?, listed, endless]

/-- A run exits unless its settings cannot be read to an end. Then it prints a whole manifest or
reports a failure, and which of them, with every character of it, does not depend on the setting.
The setting chooses what the log shows, which is the records up to a place on the scale, in their
order, so that a stricter one shows some of what a looser one does. -/
theorem run_all_or_nothing :
    (∀ threshold, run? complaint fs threshold = none ↔ fs.IsEndless settingsPath) ∧
    (¬fs.IsEndless settingsPath →
      ∃ records code output report, Ends complaint fs records code output report ∧
        (∀ setting threshold, Threshold.Asked setting threshold →
          ∃ log, Diagnostics.IsLog threshold records log ∧
            run? complaint fs (Threshold.ofSetting setting) =
              some ⟨code, output, log ++ report⟩ ∧
            Diagnostics.divide (log ++ report) = (log, report)) ∧
        ∀ stricter looser : Threshold, stricter.NoLooser looser →
          (stricter.admitted records).Sublist (looser.admitted records)) := by
  refine ⟨run?_eq_none_iff complaint fs, ?_⟩
  intro ending
  rcases listRoms_cases complaint fs ending with
    ⟨records, code, listed, ends⟩ | ⟨records, failure, listed, ends⟩
  · refine ⟨records, 0, code, "", ends, ?_, fun _ _ le => Threshold.sublist_admitted le records⟩
    intro setting threshold asked
    refine ⟨_, Diagnostics.isLog_iff.mpr rfl, ?_, ?_⟩
    · rw [Threshold.ofSetting_of_asked asked, run?, listed, exit?_of_ok complaint rfl,
        String.append_empty]
    · rw [String.append_empty]
      exact Diagnostics.divide_shown threshold records
  · refine ⟨records, 1, "", failure.report complaint, ends, ?_,
      fun _ _ le => Threshold.sublist_admitted le records⟩
    intro setting threshold asked
    refine ⟨_, Diagnostics.isLog_iff.mpr rfl, ?_, ?_⟩
    · rw [Threshold.ofSetting_of_asked asked, run?, listed, exit?_of_error complaint rfl]
    · exact Diagnostics.divide_shown_report complaint threshold records failure

def forgedShelf : FileSystem where
  objects :=
    [([Utf8.encode "app"], .directory),
      ([Utf8.encode "games"], .directory),
      ([Utf8.encode "a\nError: b", Utf8.encode "games"], .link (Path.ofString "nowhere")),
      ([Utf8.encode "tank.ch8", Utf8.encode "games"], .file [])]
  current := .inTree [Utf8.encode "app"]
  unique := by decide +kernel

def flawedShelf (settings : Object) : FileSystem where
  objects := [([Utf8.encode "roms.toml"], settings)]
  current := .inTree []
  unique := by simp

theorem run_all_or_nothing_forgedShelf :
    let complaint := fun _ : String => "invalid key"
    let flawed := flawedShelf (.file (Utf8.encode "sort = 1\n"))
    let output :=
      "static ROM_TANK_CH8: &'static [u8] = include_bytes!(\"../../games/tank.ch8\");\n" ++
        "\nlet ROMS = [\n    (\"TANK_CH8\", ROM_TANK_CH8),\n];\n"
    let warned := "[WARN ] skipping dangling link ../games/a\n    Error: b\n"
    let log := "[DEBUG] no roms.toml found, using defaults\n" ++ warned ++
      "[DEBUG] found tank.ch8 as TANK_CH8\n[INFO ] 1 ROMs in ../games/\n"
    let report := "Error: invalid config file roms.toml\n\nCaused by:\n" ++
      "    TOML parse error at line 1, column 8\n      |\n    1 | sort = 1\n      |        ^\n" ++
      "    invalid type: integer `1`, expected a boolean\n    \n"
    Threshold.Asked (some "DeBuG") .debug ∧ Threshold.Asked none .warn ∧
      Threshold.warn.NoLooser .debug ∧
      (¬forgedShelf.IsEndless settingsPath ∧
        ∃ records, Ends complaint forgedShelf records 0 output "" ∧
          (Diagnostics.IsLog .debug records log ∧
            run? complaint forgedShelf (Threshold.ofSetting (some "DeBuG")) =
              some ⟨0, output, log⟩) ∧
          (Diagnostics.IsLog .warn records warned ∧
            run? complaint forgedShelf (Threshold.ofSetting none) = some ⟨0, output, warned⟩) ∧
          (Threshold.warn.admitted records).Sublist (Threshold.debug.admitted records)) ∧
      (¬flawed.IsEndless settingsPath ∧
        ∃ records, Ends complaint flawed records 1 "" report ∧
          Diagnostics.IsLog .debug records "" ∧
          run? complaint flawed (Threshold.ofSetting (some "DeBuG")) = some ⟨1, "", report⟩ ∧
          Diagnostics.divide report = ("", report)) ∧
      run? complaint (flawedShelf .pipe) .debug = none := by
  intro complaint flawed output warned log report
  have debug : Threshold.Asked (some "DeBuG") .debug := .named (by decide +kernel)
  have noLooser : Threshold.warn.NoLooser .debug := by decide
  have missing : forgedShelf.stat settingsPath = .error .notFound := rfl
  have found : flawed.stat settingsPath = .ok (.file (Utf8.encode "sort = 1\n")) := rfl
  have ending : ¬forgedShelf.IsEndless settingsPath := by simp [FileSystem.IsEndless, missing]
  have flawedEnding : ¬flawed.IsEndless settingsPath := by simp [FileSystem.IsEndless, found]
  have exits : run? complaint forgedShelf (Threshold.ofSetting (some "DeBuG")) =
      some ⟨0, output, log⟩ := by decide +kernel
  have warns : run? complaint forgedShelf (Threshold.ofSetting none) =
      some ⟨0, output, warned⟩ := by decide +kernel
  have reports : run? complaint flawed (Threshold.ofSetting (some "DeBuG")) =
      some ⟨1, "", report⟩ := by decide +kernel
  obtain ⟨records, code, printed, reported, ends, shown, filtered⟩ :=
    (run_all_or_nothing complaint forgedShelf).2 ending
  obtain ⟨debugLog, isLog, ran, _⟩ := shown _ _ debug
  obtain ⟨warnLog, isWarnLog, ranWarn, _⟩ := shown _ _ .missing
  rw [exits, Option.some.injEq, Exit.mk.injEq] at ran
  rw [warns, Option.some.injEq, Exit.mk.injEq] at ranWarn
  obtain ⟨rfl, rfl, logged⟩ := ran
  obtain ⟨_, _, warnLogged⟩ := ranWarn
  obtain rfl := ends.report_eq_empty
  rw [String.append_empty] at logged warnLogged
  obtain ⟨flawedRecords, flawedCode, nothing, flawedReport, flawedEnds, flawedShown, _⟩ :=
    (run_all_or_nothing complaint flawed).2 flawedEnding
  obtain ⟨flawedLog, isFlawedLog, flawedRan, divided⟩ := flawedShown _ _ debug
  have marked : Diagnostics.mark <+: report.toList := by decide +kernel
  have whole := Diagnostics.divide_marked marked
  rw [reports, Option.some.injEq, Exit.mk.injEq] at flawedRan
  obtain ⟨rfl, rfl, flawedLogged⟩ := flawedRan
  rw [← flawedLogged, whole, Prod.mk.injEq] at divided
  obtain ⟨rfl, rfl⟩ := divided
  have endless : (flawedShelf .pipe).IsEndless settingsPath := .inl rfl
  exact ⟨debug, .missing, noLooser,
    ⟨ending, records, ends, ⟨logged ▸ isLog, exits⟩, ⟨warnLogged ▸ isWarnLog, warns⟩,
      filtered _ _ noLooser⟩,
    ⟨flawedEnding, flawedRecords, flawedEnds, isFlawedLog, reports, whole⟩,
    ((run_all_or_nothing complaint (flawedShelf .pipe)).1 .debug).mpr endless⟩

end Command

end RomCatalog
