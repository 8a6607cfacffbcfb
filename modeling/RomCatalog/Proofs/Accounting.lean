import RomCatalog.Proofs.Delivery
import RomCatalog.Proofs.DerivedIdentifiers
import RomCatalog.Proofs.Reproducible

/-!
Every entry of a scanned directory is accounted for. A scan that goes through leaves one record for
each, of the kind that fits what was found under its name, and the records of what was found stand
for the ROMs one to one, so that their count is the number that is reported at the end.
-/

namespace RomCatalog

inductive Note.Kind where
  | found
  | danglingLink
  | notText
  | otherKind
deriving DecidableEq, Repr

/-- The record that an entry is due, told by what is found under its name. -/
inductive Note (fs : FileSystem) (root : Path) (name : Name) : Note.Kind → Record → Prop
  | found {text : String} {contents : Bytes} : Utf8.encode text = name →
      fs.stat (root.join ⟨name⟩) = .ok (.file contents) →
      Note fs root name .found ⟨.debug, "found " ++ text ++ " as " ++ Rom.identifierOf text⟩
  | danglingLink : fs.stat (root.join ⟨name⟩) = .error .notFound →
      fs.isLink (root.join ⟨name⟩) = true →
      Note fs root name .danglingLink
        ⟨.warn, "skipping dangling link " ++ (root.join ⟨name⟩).text⟩
  | notText {contents : Bytes} : (∀ text, Utf8.encode text ≠ name) →
      fs.stat (root.join ⟨name⟩) = .ok (.file contents) →
      Note fs root name .notText
        ⟨.warn, "skipping " ++ (root.join ⟨name⟩).text ++ ": file name is not UTF-8"⟩
  | otherKind {object : Object} : fs.stat (root.join ⟨name⟩) = .ok object →
      (∀ contents, object ≠ .file contents) →
      Note fs root name .otherKind ⟨.debug, "skipping " ++ (root.join ⟨name⟩).text⟩

/-- The record is one of those about what was found, as its text shows. -/
def Record.tellsFound (record : Record) : Bool :=
  decide (record.level = .debug) && "found ".toList.isPrefixOf record.text.toList

def Rom.foundRecord (rom : Rom) : Record :=
  ⟨.debug, "found " ++ rom.name ++ " as " ++ rom.identifier⟩

namespace Note

variable {fs : FileSystem} {root : Path} {name : Name} {kind other : Note.Kind}
  {record otherRecord : Record}

theorem unique (note : Note fs root name kind record)
    (otherNote : Note fs root name other otherRecord) : kind = other ∧ record = otherRecord := by
  cases note with
  | found encoded examined =>
      cases otherNote with
      | found again _ =>
          obtain rfl := Utf8.encode_injective (encoded.trans again.symm)
          exact ⟨rfl, rfl⟩
      | danglingLink missing _ => simp [examined] at missing
      | notText undecodable _ => exact absurd encoded (undecodable _)
      | otherKind again notFile =>
          rw [examined, Except.ok.injEq] at again
          exact absurd again.symm (notFile _)
  | danglingLink missing _ =>
      cases otherNote with
      | danglingLink _ _ => exact ⟨rfl, rfl⟩
      | found _ again | notText _ again | otherKind again _ => simp [missing] at again
  | notText undecodable examined =>
      cases otherNote with
      | found encoded _ => exact absurd encoded (undecodable _)
      | danglingLink missing _ => simp [examined] at missing
      | notText _ _ => exact ⟨rfl, rfl⟩
      | otherKind again notFile =>
          rw [examined, Except.ok.injEq] at again
          exact absurd again.symm (notFile _)
  | otherKind examined notFile =>
      cases otherNote with
      | found _ again | notText _ again =>
          rw [examined, Except.ok.injEq] at again
          exact absurd again (notFile _)
      | danglingLink missing _ => simp [examined] at missing
      | otherKind _ _ => exact ⟨rfl, rfl⟩

theorem tellsFound_iff (note : Note fs root name kind record) :
    record.tellsFound = true ↔ kind = .found := by
  cases note with
  | found _ _ => simp [Record.tellsFound]
  | danglingLink _ _ => simp [Record.tellsFound]
  | notText _ _ => simp [Record.tellsFound]
  | otherKind _ _ => simp [Record.tellsFound]

end Note

namespace Scan

variable (fs : FileSystem) (root : Path)

theorem exists_note {name : Name} (examinable : Examinable fs root name) :
    ∃ kind record, (sight fs root name).record? = some record ∧
      Note fs root name kind record := by
  rcases examinable with ⟨object, examined⟩ | ⟨missing, dangling⟩
  · cases object with
    | file contents =>
        cases decoded : Utf8.decode? name with
        | none =>
            have undecodable := Utf8.decode?_eq_none_iff.mp decoded
            refine ⟨_, _, ?_, .notText undecodable examined⟩
            simp only [sight, examined, decoded]
            rfl
        | some text =>
            have encoded := Utf8.decode?_eq_some_iff.mp decoded
            exact ⟨_, _, by simp only [sight, examined, decoded]; rfl, .found encoded examined⟩
    | directory | link _ | pipe | device _ | broken _ =>
        exact ⟨_, _, by simp only [sight, examined]; rfl, .otherKind examined (by simp)⟩
  · exact ⟨_, _, by simp only [sight, missing, dangling, and_self, if_true]; rfl,
      .danglingLink missing dangling⟩

theorem forall₂_notes {names : List Name}
    (examinable : ∀ name ∈ names, Examinable fs root name) :
    List.Forall₂ (fun name record => ∃ kind, Note fs root name kind record) names
      (notes fs root names) := by
  induction names with
  | nil => exact .nil
  | cons name rest ih =>
      rw [List.forall_mem_cons] at examinable
      obtain ⟨kind, record, noted, note⟩ := exists_note fs root examinable.1
      have first : notes fs root (name :: rest) = record :: notes fs root rest :=
        List.filterMap_cons_some noted
      rw [first]
      exact .cons ⟨kind, note⟩ (ih examinable.2)

theorem filter_record? (sighting : Sighting) :
    sighting.record?.filter Record.tellsFound = sighting.rom?.map Rom.foundRecord := by
  cases sighting with
  | rom found =>
      have tells : found.foundRecord.tellsFound = true := by
        simp [Record.tellsFound, Rom.foundRecord]
      exact Option.filter_some_pos tells
  | danglingLink path | namelessFile path | otherKind path =>
      simp [Sighting.record?, Sighting.rom?, Record.tellsFound]
  | unreadable fault => rfl

theorem filter_notes (names : List Name) :
    (notes fs root names).filter Record.tellsFound =
      (found fs root names).map Rom.foundRecord := by
  simp only [notes, found, List.filter_filterMap, List.map_filterMap, filter_record?]

end Scan

theorem Rom.ofName_eq_of_foundRecord_eq {left right : String}
    (same : (ofName left).foundRecord = (ofName right).foundRecord) : left = right := by
  have texts : left ++ (" as " ++ identifierOf left) = right ++ (" as " ++ identifierOf right) := by
    have whole := congrArg Record.text same
    simpa only [foundRecord, ofName, String.append_assoc, String.append_right_inj] using whole
  have lengths := congrArg String.length texts
  simp only [String.length_append, length_identifierOf] at lengths
  have sameLength : left.toList.length = right.toList.length := by
    simp only [String.length_toList]
    omega
  have characters := congrArg String.toList texts
  simp only [String.toList_append] at characters
  exact String.toList_inj.mp (List.append_inj_left characters sameLength)

namespace Manifest

theorem journal_build {fs : FileSystem} {settings : Settings} {roms : List Rom}
    (scanned : (Scan.scan fs settings.romDirectory settings.sorted).outcome = .ok roms) :
    (build fs settings).attempt.journal =
      (Scan.scan fs settings.romDirectory settings.sorted).journal ++
        match (build fs settings).attempt.outcome with
        | .ok () =>
            [⟨.info, "wrote " ++ toString roms.length ++ " ROMs to " ++
              settings.destination.text⟩]
        | _ => [] := by
  simp only [build, scanned]
  split <;> simp_all

/-- The entries of a directory and the records of looking at them, with the ROMs that came of it.
Each entry has one record, of one kind; those of the kind `found` are the records of the ROMs, each
once. -/
structure Accounts (fs : FileSystem) (root : Path) (sorted : Bool) (names : List Name)
    (records : List Record) (roms : List Rom) : Prop where
  each : List.Forall₂ (fun name record => ∃ kind, Note fs root name kind record ∧
    (record.tellsFound = true ↔ kind = .found) ∧
    ∀ other otherRecord, Note fs root name other otherRecord →
      other = kind ∧ otherRecord = record) names records
  found : (records.filter Record.tellsFound).Perm (roms.map Rom.foundRecord)
  once : (records.filter Record.tellsFound).Nodup
  listed : sorted = false → records.filter Record.tellsFound = roms.map Rom.foundRecord

theorem accounts_of_examinable {fs : FileSystem} {root : Path} {names : List Name}
    (listed : fs.list root = .ok names)
    (examinable : ∀ name ∈ names, Scan.Examinable fs root name) (sorted : Bool) :
    Accounts fs root sorted names (Scan.notes fs root names)
      (Scan.arrange sorted (Scan.found fs root names)) where
  each := by
    refine (Scan.forall₂_notes fs root examinable).imp ?_
    rintro name record ⟨kind, note⟩
    exact ⟨kind, note, note.tellsFound_iff, fun _ _ otherNote => otherNote.unique note⟩
  found := by
    rw [Scan.filter_notes]
    exact ((Scan.perm_arrange sorted _).map Rom.foundRecord).symm
  once := by
    rw [Scan.filter_notes]
    refine Scan.nodup_map_found fs root ?_ (FileSystem.nodup_of_list listed)
    exact fun left right => Rom.ofName_eq_of_foundRecord_eq
  listed := by
    rintro rfl
    rw [Scan.filter_notes]
    rfl

theorem countP_of_accounts {fs : FileSystem} {root : Path} {sorted : Bool} {names : List Name}
    {records : List Record} {roms : List Rom}
    (accounts : Accounts fs root sorted names records roms) :
    records.countP Record.tellsFound = roms.length := by
  rw [List.countP_eq_length_filter, accounts.found.length_eq, List.length_map]

/-- A scan that goes through accounts for every entry, and then warns of every problem with the
identifiers, in the order of the ROMs. The numbers that composing and building report are the count
of what was found. -/
theorem entries_accounted :
    ∀ fs root sorted roms, (Scan.scan fs root sorted).outcome = .ok roms →
      ∃ names records, FileSystem.list fs root = .ok names ∧
        Accounts fs root sorted names records roms ∧
        (Scan.scan fs root sorted).journal =
          records ++ (Rom.problems roms).map (fun problem => ⟨.warn, problem.message⟩) ∧
        ∀ settings : Settings, settings.romDirectory = root → settings.sorted = sorted →
          let count := records.countP Record.tellsFound
          count = roms.length ∧
          (compose fs settings).journal = (Scan.scan fs root sorted).journal ++
            [⟨.info, toString count ++ " ROMs in " ++ root.text⟩] ∧
          (build fs settings).attempt.journal = (Scan.scan fs root sorted).journal ++
            match (build fs settings).attempt.outcome with
            | .ok () =>
                [⟨.info, "wrote " ++ toString count ++ " ROMs to " ++
                  settings.destination.text⟩]
            | _ => [] := by
  intro fs root sorted roms scanned
  obtain ⟨names, listed, examinable, rfl⟩ :=
    (Scan.outcome_eq_ok_iff fs root sorted roms).mp scanned
  have accounts := accounts_of_examinable listed examinable sorted
  refine ⟨names, _, listed, accounts, ?_, ?_⟩
  · rw [Scan.scan_of_examinable fs root listed examinable sorted]
    rfl
  · rintro settings rfl rfl count
    have counted : count = _ := countP_of_accounts accounts
    refine ⟨counted, ?_, ?_⟩
    · rw [compose_of_scan scanned, counted]
    · rw [journal_build scanned, counted]

theorem entries_accounted_mixedShelf :
    let settings := Settings.default.changeAll [.sorted false]
    let root := settings.romDirectory
    let roms := [Rom.ofName "A.nes", Rom.ofName "a.nes"]
    let scanned := Scan.scan mixedShelf root false
    scanned.outcome = .ok roms ∧ (build mixedShelf settings).attempt.outcome = .ok () ∧
      ∃ names records, mixedShelf.list root = .ok names ∧
        Accounts mixedShelf root false names records roms ∧
        scanned.journal =
          records ++ (Rom.problems roms).map (fun problem => ⟨.warn, problem.message⟩) ∧
        (compose mixedShelf settings).journal =
          scanned.journal ++ [⟨.info, toString 2 ++ " ROMs in " ++ root.text⟩] ∧
        (build mixedShelf settings).attempt.journal =
          scanned.journal ++
            [⟨.info, "wrote " ++ toString 2 ++ " ROMs to " ++ settings.destination.text⟩] := by
  intro settings root roms scanned
  have found : scanned.outcome = .ok roms := by decide +kernel
  have built : (build mixedShelf settings).attempt.outcome = .ok () := by decide +kernel
  obtain ⟨names, records, listed, accounts, journal, reported⟩ :=
    entries_accounted mixedShelf root false roms found
  obtain ⟨counted, composed, written⟩ := reported settings rfl rfl
  rw [built] at written
  have two : records.countP Record.tellsFound = 2 := counted
  rw [two] at composed written
  exact ⟨found, built, names, records, listed, accounts, journal, composed, written⟩

end Manifest

end RomCatalog
