import Mathlib.Data.List.Forall2
import RomCatalog.Proofs.ShownLine

/-!
What stands on standard error. It is divided where a line starts with the mark of a report: before
it stands the log. Records that run over several lines are indented, so no text that comes from the
file system can pass for a report.

What a log and a report look like is said without the functions that write them: a text is given by
its lines, and the thresholds by a scale on which each level has its place.
-/

namespace RomCatalog

namespace Diagnostics

def mark : List Char := "Error: ".toList

/-- The log and the report in a text; the first argument tells whether a line starts here. -/
def divideFrom : Bool → List Char → List Char × List Char
  | _, [] => ([], [])
  | starts, c :: rest =>
      if starts = true ∧ mark <+: c :: rest then ([], c :: rest)
      else
        let (log, report) := divideFrom (c == '\n') rest
        (c :: log, report)

def divide (text : String) : String × String :=
  let (log, report) := divideFrom true text.toList
  (String.ofList log, String.ofList report)

theorem divideFrom_inside {text : List Char} (inside : '\n' ∉ text) (rest : List Char) :
    divideFrom false (text ++ rest) =
      (text ++ (divideFrom false rest).1, (divideFrom false rest).2) := by
  induction text with
  | nil => rfl
  | cons c text ih =>
      rw [List.mem_cons, not_or] at inside
      have continues : (c == '\n') = false := by simpa using Ne.symm inside.1
      rw [List.cons_append, divideFrom]
      simp only [Bool.false_eq_true, false_and, if_false, continues, ih inside.2]
      rfl

theorem divideFrom_unmarked {c : Char} (unmarked : c ≠ 'E') (inside : c ≠ '\n')
    (rest : List Char) :
    divideFrom true (c :: rest) = (c :: (divideFrom false rest).1, (divideFrom false rest).2) := by
  have noReport : ¬mark <+: c :: rest := by
    intro marked
    have first : 'E' = c := (List.cons_prefix_cons.mp marked).1
    exact unmarked first.symm
  have continues : (c == '\n') = false := by simpa using inside
  rw [divideFrom]
  simp only [noReport, and_false, if_false, continues]

theorem divideFrom_newline (rest : List Char) :
    divideFrom false ('\n' :: rest) =
      ('\n' :: (divideFrom true rest).1, (divideFrom true rest).2) := by
  rw [divideFrom]
  simp only [Bool.false_eq_true, false_and, if_false, BEq.rfl]

theorem divideFrom_indent (rest : List Char) :
    divideFrom false ('\n' :: (Record.indent ++ rest)) =
      ('\n' :: (Record.indent ++ (divideFrom false rest).1), (divideFrom false rest).2) := by
  have inside : '\n' ∉ [' ', ' ', ' '] := by decide
  have spaces := divideFrom_inside inside rest
  simp only [List.cons_append, List.nil_append] at spaces
  simp only [Record.indent, List.cons_append, List.nil_append]
  rw [divideFrom_newline, divideFrom_unmarked (by decide) (by decide), spaces]

theorem divideFrom_hanging (text : String) (rest : List Char) :
    divideFrom false ((Record.hanging text).toList ++ rest) =
      ((Record.hanging text).toList ++ (divideFrom false rest).1, (divideFrom false rest).2) := by
  simp only [Record.hanging, String.toList_ofList]
  induction text.toList with
  | nil => rfl
  | cons c text ih =>
      rw [List.flatMap_cons, List.append_assoc]
      by_cases newline : c = '\n'
      · rw [if_pos newline, List.cons_append, divideFrom_indent, ih]
        simp only [List.cons_append, List.append_assoc]
      · have inside : '\n' ∉ [c] := by simpa using Ne.symm newline
        rw [if_neg newline, divideFrom_inside inside, ih]
        simp only [List.append_assoc]

theorem toList_line (record : Record) :
    ∃ header, '\n' ∉ header ∧ record.line.toList =
      '[' :: (header ++ ((Record.hanging record.text).toList ++ ['\n'])) := by
  refine ⟨record.level.name.toList ++
    List.replicate (5 - record.level.name.length) ' ' ++ [']', ' '], ?_, ?_⟩
  · cases record.level <;> decide
  · simp [Record.line]

theorem divideFrom_line (record : Record) (rest : List Char) :
    divideFrom true (record.line.toList ++ rest) =
      (record.line.toList ++ (divideFrom true rest).1, (divideFrom true rest).2) := by
  obtain ⟨header, inside, written⟩ := toList_line record
  rw [written, List.cons_append, List.append_assoc, List.append_assoc,
    divideFrom_unmarked (by decide) (by decide), divideFrom_inside inside, divideFrom_hanging,
    List.singleton_append, divideFrom_newline]
  simp only [List.cons_append, List.append_assoc, List.nil_append]

theorem divideFrom_lines (records : List Record) (rest : List Char) :
    divideFrom true ((String.join (records.map Record.line)).toList ++ rest) =
      ((String.join (records.map Record.line)).toList ++ (divideFrom true rest).1,
        (divideFrom true rest).2) := by
  induction records with
  | nil => simp
  | cons record records ih =>
      rw [List.map_cons, String.join_cons, String.toList_append, List.append_assoc,
        divideFrom_line, ih]
      simp only [List.append_assoc]

theorem divideFrom_marked {text : List Char} (marked : mark <+: text) :
    divideFrom true text = ([], text) := by
  obtain ⟨rest, rfl⟩ := marked
  have starts : mark <+: mark ++ rest := List.prefix_append mark rest
  change divideFrom true ('E' :: _) = _
  rw [divideFrom]
  exact if_pos ⟨rfl, starts⟩

theorem divide_marked {text : String} (marked : mark <+: text.toList) :
    divide text = ("", text) := by
  simp only [divide, divideFrom_marked marked, String.ofList_toList]

theorem marked_report (complaint : String → String) (failure : Failure) :
    mark <+: (failure.report complaint).toList := by
  simp only [Failure.report, String.toList_append, List.append_assoc]
  exact List.prefix_append _ _

theorem divide_shown (threshold : Threshold) (records : List Record) :
    divide (Journal.shown threshold records) = (Journal.shown threshold records, "") := by
  have divided := divideFrom_lines (records.filter threshold.shows) []
  simp only [divideFrom, List.append_nil] at divided
  simp only [divide, Journal.shown, divided, String.ofList_toList]

theorem divide_shown_report (complaint : String → String) (threshold : Threshold)
    (records : List Record) (failure : Failure) :
    divide (Journal.shown threshold records ++ failure.report complaint) =
      (Journal.shown threshold records, failure.report complaint) := by
  have divided :=
    divideFrom_lines (records.filter threshold.shows) (failure.report complaint).toList
  rw [divideFrom_marked (marked_report complaint failure), List.append_nil] at divided
  simp only [divide, Journal.shown, String.toList_append, divided, String.ofList_toList]

/-! The lines of a text. -/

/-- The text as its lines, and with all lines but the first indented. -/
def Indents (text indented : String) : Prop :=
  ∃ lines : List String, (∀ line ∈ lines, '\n' ∉ line.toList) ∧
    text = "\n".intercalate lines ∧ indented = "\n    ".intercalate lines

theorem exists_lines (text : List Char) :
    ∃ first rest, (∀ line ∈ first :: rest, '\n' ∉ line.toList) ∧
      String.ofList text = "\n".intercalate (first :: rest) := by
  induction text with
  | nil => exact ⟨"", [], by simp, rfl⟩
  | cons c text ih =>
      obtain ⟨first, rest, unbroken, joined⟩ := ih
      by_cases newline : c = '\n'
      · refine ⟨"", first :: rest, List.forall_mem_cons.mpr ⟨by simp, unbroken⟩, ?_⟩
        rw [String.intercalate_cons_cons, ← joined, newline, String.empty_append]
        exact @String.ofList_append ['\n'] text
      · rw [List.forall_mem_cons] at unbroken
        refine ⟨String.singleton c ++ first, rest, List.forall_mem_cons.mpr ⟨?_, unbroken.2⟩, ?_⟩
        · simpa [Ne.symm newline] using unbroken.1
        · rw [String.intercalate_cons_append, ← joined]
          exact @String.ofList_append [c] text

theorem hanging_intercalate {lines : List String}
    (unbroken : ∀ line ∈ lines, '\n' ∉ line.toList) :
    Record.hanging ("\n".intercalate lines) = "\n    ".intercalate lines := by
  induction lines with
  | nil => rfl
  | cons line rest ih =>
      rw [List.forall_mem_cons] at unbroken
      cases rest with
      | nil => simpa using Record.hanging_unbroken unbroken.1
      | cons next rest =>
          have feed : Record.hanging "\n" = "\n    " := rfl
          rw [String.intercalate_cons_cons, String.intercalate_cons_cons, Record.hanging_append,
            Record.hanging_append, Record.hanging_unbroken unbroken.1, feed, ih unbroken.2]

theorem indents_iff {text indented : String} :
    Indents text indented ↔ indented = Record.hanging text := by
  constructor
  · rintro ⟨lines, unbroken, rfl, rfl⟩
    exact (hanging_intercalate unbroken).symm
  · rintro rfl
    obtain ⟨first, rest, unbroken, joined⟩ := exists_lines text.toList
    rw [String.ofList_toList] at joined
    refine ⟨first :: rest, unbroken, joined, ?_⟩
    rw [joined, hanging_intercalate unbroken]

end Diagnostics

namespace Threshold

def scale : List Threshold := [.off, .error, .warn, .info, .debug, .trace]

/-- The thresholds are the same, or the first comes before the second on the scale. -/
def NoLooser (stricter looser : Threshold) : Prop :=
  stricter = looser ∨ [stricter, looser].Sublist scale

instance (stricter looser : Threshold) : Decidable (NoLooser stricter looser) :=
  inferInstanceAs (Decidable (stricter = looser ∨ [stricter, looser].Sublist scale))

theorem noLooser_iff (stricter looser : Threshold) :
    stricter.NoLooser looser ↔ stricter.detail ≤ looser.detail := by
  cases stricter <;> cases looser <;> decide

end Threshold

def Level.threshold : Level → Threshold
  | .warn => .warn
  | .info => .info
  | .debug => .debug

def Level.tag : Level → String
  | .warn => "[WARN ] "
  | .info => "[INFO ] "
  | .debug => "[DEBUG] "

namespace Threshold

def Admits (threshold : Threshold) (level : Level) : Prop :=
  level.threshold.NoLooser threshold

instance (threshold : Threshold) (level : Level) : Decidable (threshold.Admits level) :=
  inferInstanceAs (Decidable (level.threshold.NoLooser threshold))

def admitted (threshold : Threshold) (records : List Record) : List Record :=
  records.filter fun record => threshold.Admits record.level

theorem admitted_eq (threshold : Threshold) (records : List Record) :
    threshold.admitted records = records.filter threshold.shows := by
  refine List.filter_congr ?_
  intro record _
  refine decide_eq_decide.mpr ((noLooser_iff _ _).trans ?_)
  cases record.level <;> exact Iff.rfl

theorem sublist_admitted {stricter looser : Threshold} (noLooser : stricter.NoLooser looser)
    (records : List Record) : (stricter.admitted records).Sublist (looser.admitted records) := by
  rw [noLooser_iff] at noLooser
  rw [admitted_eq, admitted_eq]
  refine List.monotone_filter_right records ?_
  intro record shown
  simp only [shows, decide_eq_true_eq] at shown ⊢
  exact Nat.le_trans shown noLooser

end Threshold

namespace Diagnostics

def ShownAs (record : Record) (shown : String) : Prop :=
  ∃ indented, Indents record.text indented ∧ shown = record.level.tag ++ indented ++ "\n"

/-- The log shows the records that the threshold admits, one after the other. -/
def IsLog (threshold : Threshold) (records : List Record) (log : String) : Prop :=
  ∃ shown, List.Forall₂ ShownAs (threshold.admitted records) shown ∧ log = String.join shown

theorem shownAs_iff {record : Record} {shown : String} :
    ShownAs record shown ↔ record.line = shown := by
  have tag : "[" ++ record.level.name ++
      String.ofList (List.replicate (5 - record.level.name.length) ' ') ++ "] " =
        record.level.tag := by
    cases record.level <;> decide +kernel
  simp only [ShownAs, indents_iff, exists_eq_left, Record.line, tag, eq_comm]

theorem isLog_iff {threshold : Threshold} {records : List Record} {log : String} :
    IsLog threshold records log ↔ log = Journal.shown threshold records := by
  have same : ShownAs = fun record shown => record.line = shown := by
    funext record shown
    exact propext shownAs_iff
  have lines (records : List Record) (shown : List String) :
      List.Forall₂ ShownAs records shown ↔ records.map Record.line = shown := by
    rw [same, ← List.forall₂_map_left_iff, List.forall₂_eq_eq_eq]
  simp only [IsLog, Threshold.admitted_eq, lines, exists_eq_left', Journal.shown]

inductive Told (complaint : String → String) : Failure → String → String → Prop
  | directoryAccess (root : Path) (fault : Fault) : Told complaint (.directoryAccess root fault)
      ("could not read ROM directory " ++ root.text) fault.message
  | settingsUnreadable (path : Path) (fault : Fault) :
      Told complaint (.settingsUnreadable path fault)
        ("could not read config file " ++ path.text) fault.message
  | settingsNotToml (path : Path) (text : String) : Told complaint (.settingsNotToml path text)
      ("invalid config file " ++ path.text) (complaint text)
  | settingsMisfit (path : Path) (text : String) (misfit : Misfit) (start stop : Nat) :
      Told complaint (.settingsMisfit path text misfit start stop)
        ("invalid config file " ++ path.text) (Toml.excerpt text misfit.message start stop)

/-- The report of a failure: its message, and its cause indented below. -/
def IsReport (complaint : String → String) (failure : Failure) (report : String) : Prop :=
  ∃ message cause indented, Told complaint failure message cause ∧ Indents cause indented ∧
    report = "Error: " ++ message ++ "\n\nCaused by:\n    " ++ indented ++ "\n"

variable (complaint : String → String) {failure : Failure}

theorem isReport_of_told {message cause : String} (told : Told complaint failure message cause) :
    IsReport complaint failure (failure.report complaint) := by
  have message : failure.message = message := by cases told <;> rfl
  have cause : failure.cause? complaint = some cause := by cases told <;> rfl
  refine ⟨_, _, _, told, indents_iff.mpr rfl, ?_⟩
  simp only [Failure.report, message, cause, String.append_assoc]

end Diagnostics

end RomCatalog
