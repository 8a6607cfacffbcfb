import RomCatalog.Proofs.Lookup
import RomCatalog.Proofs.SettingsFile
import RomCatalog.Proofs.TopLevelKeys

/-!
Which settings files are accepted, and why one is not. A file is accepted if its keys are known and
each has a value of its kind. Otherwise the first entry that does not fit decides what is reported,
and nothing that comes after it has a say.
-/

namespace RomCatalog

/-- The keys of a settings file, each with the kind of value that it wants. -/
def SettingsFile.wants : List (String × Wanted) :=
  [("root", .pathText), ("include_prefix", .text), ("binding_prefix", .text), ("table_name", .text),
    ("sort", .boolean)]

def SettingsFile.wanted? (key : String) : Option Wanted :=
  SettingsFile.wants.lookup key

def Found.suits : Found → Wanted → Bool
  | .string _, .pathText => true
  | .string _, .text => true
  | .boolean _, .boolean => true
  | _, _ => false

/-! What a message tells of a misfit. -/

theorem Misfit.message_unknownKey (name : String) :
    (Misfit.unknownKey name).message = "unknown field `" ++ name ++ "`, expected one of " ++
      ", ".intercalate (SettingsFile.wants.map fun key => "`" ++ key.1 ++ "`") := by
  have listed : "`, expected one of `root`, `include_prefix`, `binding_prefix`, " ++
      "`table_name`, `sort`" = "`, expected one of " ++
        ", ".intercalate (SettingsFile.wants.map fun key => "`" ++ key.1 ++ "`") := by
    simp only [SettingsFile.wants, List.map, String.intercalate_cons_cons,
      String.intercalate_singleton, String.reduceAppend]
  exact String.append_assoc.trans
    ((congrArg ("unknown field `" ++ name ++ ·) listed).trans String.append_assoc.symm)

theorem Misfit.message_wrongKind (found : Found) (wanted : Wanted) :
    (Misfit.wrongKind found wanted).message =
      "invalid type: " ++ found.message ++ ", expected " ++ wanted.message := rfl

inductive Found.Kind where
  | string
  | integer
  | float
  | boolean
  | sequence
  | map
deriving DecidableEq

def Found.kind : Found → Found.Kind
  | .string _ => .string
  | .integer _ => .integer
  | .float _ => .float
  | .boolean _ => .boolean
  | .sequence => .sequence
  | .map => .map

def Found.Kind.name : Found.Kind → String
  | .string => "string"
  | .integer => "integer"
  | .float => "floating point"
  | .boolean => "boolean"
  | .sequence => "sequence"
  | .map => "map"

theorem Found.message_eq (found : Found) : ∃ value, found.message = found.kind.name ++ value := by
  cases found with
  | string text =>
      refine ⟨" " ++ Text.quote text, ?_⟩
      rw [← String.append_assoc]
      rfl
  | integer value =>
      refine ⟨" `" ++ toString value ++ "`", ?_⟩
      rw [← String.append_assoc, ← String.append_assoc]
      rfl
  | float value =>
      refine ⟨" `" ++ value.text ++ "`", ?_⟩
      rw [← String.append_assoc, ← String.append_assoc]
      rfl
  | boolean value =>
      refine ⟨" `" ++ (if value then "true" else "false") ++ "`", ?_⟩
      rw [← String.append_assoc, ← String.append_assoc]
      rfl
  | sequence => exact ⟨"", rfl⟩
  | map => exact ⟨"", rfl⟩

theorem Found.Kind.eq_of_prefix {kind other : Found.Kind}
    (starts : kind.name.toList <+: other.name.toList) : kind = other := by
  revert starts
  cases kind <;> cases other <;> decide

theorem Found.kind_eq_of_message_eq {found other : Found} (same : found.message = other.message) :
    found.kind = other.kind := by
  obtain ⟨value, written⟩ := found.message_eq
  obtain ⟨otherValue, otherWritten⟩ := other.message_eq
  rw [written, otherWritten] at same
  have starts : found.kind.name.toList <+: (other.kind.name ++ otherValue).toList := by
    rw [← same, String.toList_append]
    exact List.prefix_append _ _
  have otherStarts : other.kind.name.toList <+: (other.kind.name ++ otherValue).toList := by
    rw [String.toList_append]
    exact List.prefix_append _ _
  rcases List.prefix_or_prefix_of_prefix starts otherStarts with within | within
  · exact Kind.eq_of_prefix within
  · exact (Kind.eq_of_prefix within).symm

theorem Wanted.eq_of_append_message_eq {left right : String} {wanted other : Wanted}
    (same : left ++ ", expected " ++ wanted.message = right ++ ", expected " ++ other.message) :
    wanted = other := by
  have ends := congrArg (fun text => text.toList.reverse) same
  cases wanted <;> cases other <;> simp [Wanted.message] at ends ⊢

inductive Misfit.Alike : Misfit → Misfit → Prop
  | unknownKey (name : String) : Alike (.unknownKey name) (.unknownKey name)
  | wrongKind {found other : Found} {wanted : Wanted} : found.kind = other.kind →
      found.message = other.message → Alike (.wrongKind found wanted) (.wrongKind other wanted)

theorem Misfit.message_unknownKey_ne (name : String) (found : Found) (wanted : Wanted) :
    (Misfit.unknownKey name).message ≠ (Misfit.wrongKind found wanted).message := by
  intro same
  have starts := congrArg (fun text => text.toList.head?) same
  simp only [message_unknownKey, message_wrongKind, String.append_assoc, String.toList_append]
    at starts
  exact absurd (Option.some.inj starts) (by decide)

/-- A message tells the key that is unknown, or the kind that was found and the one wanted. -/
theorem Misfit.alike_of_message_eq {misfit other : Misfit}
    (same : misfit.message = other.message) : misfit.Alike other := by
  cases misfit with
  | unknownKey name =>
      cases other with
      | unknownKey otherName =>
          rw [message_unknownKey, message_unknownKey, String.append_left_inj,
            String.append_left_inj, String.append_right_inj] at same
          subst same
          exact .unknownKey name
      | wrongKind found wanted => exact absurd same (message_unknownKey_ne name found wanted)
  | wrongKind found wanted =>
      cases other with
      | unknownKey name => exact absurd same.symm (message_unknownKey_ne name found wanted)
      | wrongKind otherFound otherWanted =>
          rw [message_wrongKind, message_wrongKind] at same
          obtain rfl := Wanted.eq_of_append_message_eq same
          rw [String.append_left_inj, String.append_left_inj, String.append_right_inj] at same
          exact .wrongKind (Found.kind_eq_of_message_eq same) same

namespace SettingsFile

open SettingsText

def Fits (entry : Toml.Key × Toml.Node) : Prop :=
  ∃ wanted, wanted? entry.1.text = some wanted ∧ (Found.ofNode entry.2).suits wanted = true

/-- The entries that fit are passed over, and the first other one is either unknown, whatever its
value, or of another kind than its key wants. -/
inductive FirstMisfit : Toml.Entries → Misfit → Prop
  | unknown {key : Toml.Key} {node : Toml.Node} {rest : Toml.Entries} :
      wanted? key.text = none → FirstMisfit ((key, node) :: rest) (.unknownKey key.text)
  | wrongKind {key : Toml.Key} {node : Toml.Node} {rest : Toml.Entries} {wanted : Wanted} :
      wanted? key.text = some wanted → (Found.ofNode node).suits wanted = false →
        FirstMisfit ((key, node) :: rest) (.wrongKind (Found.ofNode node) wanted)
  | later {entry : Toml.Key × Toml.Node} {rest : Toml.Entries} {misfit : Misfit} :
      Fits entry → FirstMisfit rest misfit → FirstMisfit (entry :: rest) misfit

/-- The same keys with values that fit, then the same misfit; what comes after it may differ. -/
inductive AlikeUpToMisfit : Toml.Entries → Toml.Entries → Prop
  | unknown {key other : Toml.Key} {node otherNode : Toml.Node} {rest others : Toml.Entries} :
      wanted? key.text = none → other.text = key.text →
        AlikeUpToMisfit ((key, node) :: rest) ((other, otherNode) :: others)
  | wrongKind {key other : Toml.Key} {node otherNode : Toml.Node} {rest others : Toml.Entries}
      {wanted : Wanted} : wanted? key.text = some wanted →
        (Found.ofNode node).suits wanted = false → other.text = key.text →
        Found.ofNode otherNode = Found.ofNode node →
        AlikeUpToMisfit ((key, node) :: rest) ((other, otherNode) :: others)
  | later {entry other : Toml.Key × Toml.Node} {rest others : Toml.Entries} :
      other.1.text = entry.1.text → Fits entry → Fits other → AlikeUpToMisfit rest others →
        AlikeUpToMisfit (entry :: rest) (other :: others)

theorem exists_firstMisfit {entries others : Toml.Entries}
    (alike : AlikeUpToMisfit entries others) :
    ∃ misfit, FirstMisfit entries misfit ∧ FirstMisfit others misfit := by
  induction alike with
  | unknown unknown same =>
      refine ⟨_, .unknown unknown, ?_⟩
      rw [← same] at unknown ⊢
      exact .unknown unknown
  | wrongKind wanted unsuited same found =>
      refine ⟨_, .wrongKind wanted unsuited, ?_⟩
      rw [← same] at wanted
      rw [← found] at unsuited ⊢
      exact .wrongKind wanted unsuited
  | later _ fits otherFits _ ih =>
      obtain ⟨misfit, first, otherFirst⟩ := ih
      exact ⟨misfit, .later fits first, .later otherFits otherFirst⟩

theorem mem_wants {key : String} {wanted : Wanted} (wants : wanted? key = some wanted) :
    (key, wanted) ∈ SettingsFile.wants :=
  (Lookup.lookup_eq_some_iff_mem (by decide) key wanted).mp wants

/-! An entry that fits gives one of the settings. -/

theorem string_of_suits {node : Toml.Node} {wanted : Wanted} (notBoolean : wanted ≠ .boolean)
    (suits : (Found.ofNode node).suits wanted = true) :
    ∃ text span, node = .value (.string text) span := by
  cases node with
  | value value span =>
      cases value with
      | string text => exact ⟨text, span, rfl⟩
      | boolean flag =>
          cases wanted with
          | boolean => exact absurd rfl notBoolean
          | pathText | text => simp [Found.ofNode, Found.ofValue, Found.suits] at suits
      | integer _ | float _ | dateTime | array _ | table _ =>
          simp [Found.ofNode, Found.ofValue, Found.suits] at suits
  | table _ _ => simp [Found.ofNode, Found.suits] at suits
  | tables _ _ _ => simp [Found.ofNode, Found.suits] at suits

theorem boolean_of_suits {node : Toml.Node} (suits : (Found.ofNode node).suits .boolean = true) :
    ∃ flag span, node = .value (.boolean flag) span := by
  cases node with
  | value value span =>
      cases value with
      | boolean flag => exact ⟨flag, span, rfl⟩
      | string _ | integer _ | float _ | dateTime | array _ | table _ =>
          simp [Found.ofNode, Found.ofValue, Found.suits] at suits
  | table _ _ => simp [Found.ofNode, Found.suits] at suits
  | tables _ _ _ => simp [Found.ofNode, Found.suits] at suits

theorem exists_holds {entry : Toml.Key × Toml.Node} (fits : Fits entry) :
    ∃ item, Holds item entry := by
  obtain ⟨key, node⟩ := entry
  obtain ⟨wanted, wants, suits⟩ := fits
  dsimp only at wants suits
  have listed := mem_wants wants
  simp only [SettingsFile.wants, List.mem_cons, Prod.mk.injEq, List.not_mem_nil, or_false] at listed
  rcases listed with ⟨named, rfl⟩ | ⟨named, rfl⟩ | ⟨named, rfl⟩ | ⟨named, rfl⟩ | ⟨named, rfl⟩
  · obtain ⟨text, span, rfl⟩ := string_of_suits (by simp) suits
    exact ⟨.root text, named, span, rfl⟩
  · obtain ⟨text, span, rfl⟩ := string_of_suits (by simp) suits
    exact ⟨.includeStart text, named, span, rfl⟩
  · obtain ⟨text, span, rfl⟩ := string_of_suits (by simp) suits
    exact ⟨.bindingStart text, named, span, rfl⟩
  · obtain ⟨text, span, rfl⟩ := string_of_suits (by simp) suits
    exact ⟨.tableName text, named, span, rfl⟩
  · obtain ⟨flag, span, rfl⟩ := boolean_of_suits suits
    exact ⟨.sorted flag, named, span, rfl⟩

theorem exists_items {entries : Toml.Entries} (fit : ∀ entry ∈ entries, Fits entry) :
    ∃ items, List.Forall₂ Holds items entries := by
  induction entries with
  | nil => exact ⟨[], .nil⟩
  | cons entry rest ih =>
      rw [List.forall_mem_cons] at fit
      obtain ⟨item, holds⟩ := exists_holds fit.1
      obtain ⟨items, holdsRest⟩ := ih fit.2
      exact ⟨item :: items, .cons holds holdsRest⟩

/-! The first misfit is what reading the entries ends with. -/

theorem set_unknown {key : String} (unknown : wanted? key = none) (overrides : Overrides)
    (found : Found) : set overrides key found = .error (.unknownKey key) := by
  have other (name : String) {wanted : Wanted} (known : wanted? name = some wanted) :
      key ≠ name := by
    rintro rfl
    rw [unknown] at known
    simp at known
  rw [set, if_neg (other "root" rfl), if_neg (other "include_prefix" rfl),
    if_neg (other "binding_prefix" rfl), if_neg (other "table_name" rfl),
    if_neg (other "sort" rfl)]

theorem text?_of_unsuited {found : Found} {wanted : Wanted} (notBoolean : wanted ≠ .boolean)
    (unsuited : found.suits wanted = false) :
    found.text? wanted = .error (.wrongKind found wanted) := by
  cases found with
  | string text =>
      cases wanted with
      | boolean => exact absurd rfl notBoolean
      | pathText | text => simp [Found.suits] at unsuited
  | integer _ | float _ | boolean _ | sequence | map => rfl

theorem boolean?_of_unsuited {found : Found} (unsuited : found.suits .boolean = false) :
    found.boolean? = .error (.wrongKind found .boolean) := by
  cases found with
  | boolean flag => simp [Found.suits] at unsuited
  | string _ | integer _ | float _ | sequence | map => rfl

theorem set_wrongKind {key : String} {found : Found} {wanted : Wanted}
    (wants : wanted? key = some wanted) (unsuited : found.suits wanted = false)
    (overrides : Overrides) : set overrides key found = .error (.wrongKind found wanted) := by
  have listed := mem_wants wants
  simp only [SettingsFile.wants, List.mem_cons, Prod.mk.injEq, List.not_mem_nil, or_false] at listed
  rcases listed with ⟨rfl, rfl⟩ | ⟨rfl, rfl⟩ | ⟨rfl, rfl⟩ | ⟨rfl, rfl⟩ | ⟨rfl, rfl⟩
  · simp [set, text?_of_unsuited (by simp) unsuited, Except.map]
  · simp [set, text?_of_unsuited (by simp) unsuited, Except.map]
  · simp [set, text?_of_unsuited (by simp) unsuited, Except.map]
  · simp [set, text?_of_unsuited (by simp) unsuited, Except.map]
  · simp [set, boolean?_of_unsuited unsuited, Except.map]

theorem setAll_of_firstMisfit {entries : Toml.Entries} {misfit : Misfit}
    (first : FirstMisfit entries misfit) (overrides : Overrides) :
    ∃ span, setAll overrides entries = .error (misfit, span) := by
  induction first generalizing overrides with
  | unknown unknown =>
      rw [setAll, set_unknown unknown]
      exact ⟨_, rfl⟩
  | wrongKind wants unsuited =>
      rw [setAll, set_wrongKind wants unsuited]
      exact ⟨_, rfl⟩
  | @later entry rest misfit fits _ ih =>
      obtain ⟨item, named, span, given⟩ := exists_holds fits
      obtain ⟨key, node⟩ := entry
      dsimp only at named given
      obtain ⟨span, ended⟩ := ih (item.take overrides)
      refine ⟨span, ?_⟩
      rw [setAll, named, given, Found.ofNode, set_item]
      exact ended

theorem firstMisfit_of_not_fits {entries : Toml.Entries}
    (misfit : ¬∀ entry ∈ entries, Fits entry) : ∃ misfit, FirstMisfit entries misfit := by
  induction entries with
  | nil => simp at misfit
  | cons entry rest ih =>
      obtain ⟨key, node⟩ := entry
      by_cases fits : Fits (key, node)
      · rw [List.forall_mem_cons, not_and] at misfit
        obtain ⟨reason, first⟩ := ih (misfit fits)
        exact ⟨reason, .later fits first⟩
      · cases wants : wanted? key.text with
        | none => exact ⟨_, .unknown wants⟩
        | some wanted =>
            cases suits : (Found.ofNode node).suits wanted with
            | false => exact ⟨_, .wrongKind wants suits⟩
            | true => exact absurd ⟨wanted, wants, suits⟩ fits

end SettingsFile

namespace Settings

open SettingsFile SettingsText

section

variable {fs : FileSystem} {path : Path} {text : String} {entries : Toml.Entries}

theorem load_of_readText (contents : fs.readText path = .ok text) :
    load fs path = .ofExcept (ofText path text) := by
  simp only [load, contents]

theorem load_of_holds (contents : fs.readText path = .ok text)
    (valid : Toml.document? text.toList = some entries) {items : List Item}
    (holds : List.Forall₂ Holds items entries) :
    load fs path = .ok ((items.foldl Item.take Overrides.empty).apply
      { default with base := path.parent?.getD Path.empty }) := by
  simp only [load_of_readText contents, ofText, SettingsFile.read, valid, setAll_holds holds,
    Outcome.ofExcept]

theorem load_of_firstMisfit (contents : fs.readText path = .ok text)
    (valid : Toml.document? text.toList = some entries) {misfit : Misfit}
    (first : FirstMisfit entries misfit) :
    ∃ start stop, load fs path = .error (.settingsMisfit path text misfit start stop) := by
  obtain ⟨span, ended⟩ := setAll_of_firstMisfit first Overrides.empty
  simp only [load_of_readText contents, ofText, SettingsFile.read, valid, ended, Outcome.ofExcept]
  exact ⟨_, _, rfl⟩

theorem fits_of_load {settings : Settings} (contents : fs.readText path = .ok text)
    (valid : Toml.document? text.toList = some entries) (loaded : load fs path = .ok settings) :
    ∀ entry ∈ entries, Fits entry := by
  by_contra misfit
  obtain ⟨reason, first⟩ := firstMisfit_of_not_fits misfit
  obtain ⟨start, stop, failed⟩ := load_of_firstMisfit contents valid first
  rw [loaded] at failed
  simp at failed

end

structure Decided (fs : FileSystem) (path : Path) (text : String) (entries : Toml.Entries) :
    Prop where
  ended : load fs path ≠ .endless
  accepted : (∃ settings, load fs path = .ok settings) ↔ ∀ entry ∈ entries, Fits entry
  rejected : ∀ failure, load fs path = .error failure → ∃ misfit start stop,
    FirstMisfit entries misfit ∧ failure = .settingsMisfit path text misfit start stop

theorem decided_of_document {fs : FileSystem} {path : Path} {text : String}
    {entries : Toml.Entries} (contents : fs.readText path = .ok text)
    (valid : Toml.document? text.toList = some entries) : Decided fs path text entries := by
  refine ⟨?_, ⟨fun ⟨settings, loaded⟩ => fits_of_load contents valid loaded, ?_⟩, ?_⟩
  · rw [load_of_readText contents]
    exact Outcome.ofExcept_ne_endless _
  · intro fit
    obtain ⟨items, holds⟩ := exists_items fit
    exact ⟨_, load_of_holds contents valid holds⟩
  · intro failure failed
    have misfit : ¬∀ entry ∈ entries, Fits entry := by
      intro fit
      obtain ⟨items, holds⟩ := exists_items fit
      rw [load_of_holds contents valid holds] at failed
      simp at failed
    obtain ⟨reason, first⟩ := firstMisfit_of_not_fits misfit
    obtain ⟨start, stop, ended⟩ := load_of_firstMisfit contents valid first
    rw [ended, Outcome.error.injEq] at failed
    exact ⟨reason, start, stop, first, failed.symm⟩

/-- A file that is TOML is accepted if all its entries fit, and else the first that does not decides
what is reported, so that files which are alike up to there are told the same. The entries are those
of the keys that the text mentions, in the order in which it first does so as long as no header
reopens a table; a table that is reopened comes where its header does. -/
theorem load_decided_by_first_misfit :
    ∀ fs path text entries, FileSystem.readText fs path = .ok text →
      Toml.document? text.toList = some entries →
      Decided fs path text entries ∧
      (∀ statements, Toml.statements? text.toList = some statements →
        entries.keys.Perm (Toml.mentioned [] statements).eraseDups ∧
        (¬Toml.Reopens statements →
          entries.keys = (Toml.mentioned [] statements).eraseDups)) ∧
      ∀ otherFs otherPath otherText others,
        FileSystem.readText otherFs otherPath = .ok otherText →
        Toml.document? otherText.toList = some others → AlikeUpToMisfit entries others →
        ∃ misfit start stop otherStart otherStop,
          load fs path = .error (.settingsMisfit path text misfit start stop) ∧
          load otherFs otherPath =
            .error (.settingsMisfit otherPath otherText misfit otherStart otherStop) := by
  intro fs path text entries contents valid
  refine ⟨decided_of_document contents valid, fun _ => Toml.keys_document valid, ?_⟩
  intro otherFs otherPath otherText others otherContents otherValid alike
  obtain ⟨misfit, first, otherFirst⟩ := exists_firstMisfit alike
  obtain ⟨start, stop, failed⟩ := load_of_firstMisfit contents valid first
  obtain ⟨otherStart, otherStop, otherFailed⟩ :=
    load_of_firstMisfit otherContents otherValid otherFirst
  exact ⟨misfit, start, stop, otherStart, otherStop, failed, otherFailed⟩

def dottedText : String :=
  "'table_name' = 'X' # first\n\"s\\u006Frt\".deep = 1\n[[rooms]]"

def dottedEntries : Toml.Entries :=
  [(⟨"table_name", ⟨57, 45⟩⟩, .value (.string "X") ⟨42, 39⟩),
    (⟨"sort", ⟨30, 19⟩⟩, .table .dotted [(⟨"deep", ⟨18, 14⟩⟩, .value (.integer 1) ⟨11, 10⟩)]),
    (⟨"rooms", ⟨7, 2⟩⟩, .tables ⟨9, 0⟩ [] [])]

def otherText : String := "table_name = \"Y\"\nsort.deep = 1\nroot = 5\n"

def otherEntries : Toml.Entries :=
  [(⟨"table_name", ⟨40, 30⟩⟩, .value (.string "Y") ⟨27, 24⟩),
    (⟨"sort", ⟨23, 19⟩⟩, .table .dotted [(⟨"deep", ⟨18, 14⟩⟩, .value (.integer 1) ⟨11, 10⟩)]),
    (⟨"root", ⟨9, 5⟩⟩, .value (.integer 5) ⟨2, 1⟩)]

def dottedShelf : FileSystem where
  objects :=
    [([Utf8.encode "roms.toml"], .file (Utf8.encode dottedText)),
      ([Utf8.encode "other.toml"], .file (Utf8.encode otherText))]
  current := .inTree []
  unique := by decide +kernel

theorem load_decided_by_first_misfit_dotted :
    let roms := Path.ofString "roms.toml"
    let other := Path.ofString "other.toml"
    dottedShelf.readText roms = .ok dottedText ∧
      Toml.document? dottedText.toList = some dottedEntries ∧
      Decided dottedShelf roms dottedText dottedEntries ∧
      (∃ statements, Toml.statements? dottedText.toList = some statements ∧
        ¬Toml.Reopens statements ∧
        dottedEntries.keys = (Toml.mentioned [] statements).eraseDups) ∧
      dottedShelf.readText other = .ok otherText ∧
      Toml.document? otherText.toList = some otherEntries ∧
      AlikeUpToMisfit dottedEntries otherEntries ∧
      ∃ misfit start stop otherStart otherStop,
        load dottedShelf roms = .error (.settingsMisfit roms dottedText misfit start stop) ∧
        load dottedShelf other =
          .error (.settingsMisfit other otherText misfit otherStart otherStop) := by
  intro roms other
  have contents : dottedShelf.readText roms = .ok dottedText := rfl
  have otherContents : dottedShelf.readText other = .ok otherText := rfl
  have valid : Toml.document? dottedText.toList = some dottedEntries := rfl
  have otherValid : Toml.document? otherText.toList = some otherEntries := rfl
  have alike : AlikeUpToMisfit dottedEntries otherEntries :=
    .later rfl ⟨.text, rfl, rfl⟩ ⟨.text, rfl, rfl⟩ (.wrongKind rfl rfl rfl rfl)
  obtain ⟨decided, ordered, told⟩ :=
    load_decided_by_first_misfit dottedShelf roms dottedText dottedEntries contents valid
  obtain ⟨statements, read, unopened⟩ : ∃ statements,
      Toml.statements? dottedText.toList = some statements ∧ ¬Toml.Reopens statements := by
    refine ⟨_, rfl, ?_⟩
    rintro ⟨key, before, span, after, split, _⟩
    have member : Toml.Statement.table [key] span ∈ before ++ .table [key] span :: after := by simp
    rw [← split] at member
    simp at member
  exact ⟨contents, valid, decided,
    ⟨statements, read, unopened, (ordered statements read).2 unopened⟩,
    otherContents, otherValid, alike,
    told dottedShelf other otherText otherEntries otherContents otherValid alike⟩

end Settings

end RomCatalog
