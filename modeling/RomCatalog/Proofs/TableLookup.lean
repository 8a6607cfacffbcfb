import RomCatalog.Proofs.Lookup
import RomCatalog.Proofs.Problems
import RomCatalog.Table

/-!
Looking up an identifier in a table. The answer is what the first row with the identifier holds. In
a table made of ROMs the order of the rows does not matter as long as no identifier is reported as
repeated; where one is, some data under the ROMs make the order show.
-/

namespace RomCatalog.Table

/-- The row at a position has the identifier and the data, and no row before it has the
identifier. -/
def FirstAt (table : Table) (identifier : String) (position : Nat) (data : Bytes) : Prop :=
  table[position]? = some (identifier, data) ∧ ∀ row ∈ table.take position, row.1 ≠ identifier

instance (table : Table) (identifier : String) (position : Nat) (data : Bytes) :
    Decidable (table.FirstAt identifier position data) :=
  inferInstanceAs (Decidable (_ ∧ _))

theorem find?_eq_some_iff (table : Table) (identifier : String) (data : Bytes) :
    table.find? identifier = some data ↔
      ∃ position, table.FirstAt identifier position data := by
  rw [find?, List.lookup_eq_some_iff]
  constructor
  · rintro ⟨before, behind, rfl, unlike⟩
    refine ⟨before.length, by simp, ?_⟩
    intro row earlier
    rw [List.take_left] at earlier
    exact (bne_iff_ne.mp (unlike row earlier)).symm
  · rintro ⟨position, stands, unlike⟩
    obtain ⟨inside, rowAt⟩ := List.getElem?_eq_some_iff.mp stands
    refine ⟨table.take position, table.drop (position + 1), ?_, ?_⟩
    · rw [← rowAt, List.getElem_cons_drop, List.take_append_drop]
    · intro row earlier
      exact bne_iff_ne.mpr (unlike row earlier).symm

theorem find?_eq_none_iff (table : Table) (identifier : String) :
    table.find? identifier = none ↔ ∀ row ∈ table, row.1 ≠ identifier := by
  simp only [find?, List.lookup_eq_none_iff, bne_iff_ne, ne_comm]

def ofPairs (pairs : List (Rom × Bytes)) : Table :=
  pairs.map fun pair => (pair.1.identifier, pair.2)

theorem embed_eq_ofPairs (contents : Rom → Bytes) (roms : List Rom) :
    embed contents roms = ofPairs (roms.map fun rom => (rom, contents rom)) := by
  simp [embed, ofPairs]

theorem keys_ofPairs (pairs : List (Rom × Bytes)) :
    (ofPairs pairs).map Prod.fst = (pairs.map Prod.fst).map Rom.identifier := by
  simp [ofPairs]

theorem find?_ofPairs {pairs : List (Rom × Bytes)}
    (distinct : ((pairs.map Prod.fst).map Rom.identifier).Nodup) {pair : Rom × Bytes}
    (listed : pair ∈ pairs) : (ofPairs pairs).find? pair.1.identifier = some pair.2 := by
  rw [← keys_ofPairs] at distinct
  exact (Lookup.lookup_eq_some_iff_mem distinct _ _).mpr (List.mem_map.mpr ⟨pair, listed, rfl⟩)

def numbered (roms : List Rom) : List (Rom × Bytes) :=
  roms.zipIdx.map fun entry => (entry.1, List.replicate entry.2 0)

theorem map_fst_numbered (roms : List Rom) : (numbered roms).map Prod.fst = roms := by
  simp [numbered, Function.comp_def]

theorem row_numbered_mem {roms : List Rom} {position : Nat} (inside : position < roms.length) :
    (roms[position].identifier, List.replicate position 0) ∈ ofPairs (numbered roms) := by
  have entry : (roms[position], position) ∈ roms.zipIdx := by
    rw [List.mem_zipIdx_iff_getElem?, List.getElem?_eq_getElem inside]
  simp only [ofPairs, numbered, List.map_map]
  exact List.mem_map.mpr ⟨(roms[position], position), entry, rfl⟩

theorem nodup_of_agree_numbered {roms : List Rom} (agree : Lookup.Agree (ofPairs (numbered roms))) :
    (roms.map Rom.identifier).Nodup := by
  rw [List.nodup_iff_injective_get]
  intro first second same
  have firstInside : first.val < roms.length := by simpa using first.isLt
  have secondInside : second.val < roms.length := by simpa using second.isLt
  have sameKey : roms[first.val].identifier = roms[second.val].identifier := by simpa using same
  have firstRow := row_numbered_mem firstInside
  rw [sameKey] at firstRow
  have sameData := agree _ _ _ firstRow (row_numbered_mem secondInside)
  have sameLength := congrArg List.length sameData
  simp only [List.length_replicate] at sameLength
  exact Fin.ext sameLength

theorem exists_reordered {roms : List Rom}
    (reported : .repeated ∈ (Rom.problems roms).map Problem.kind) :
    ∃ (others : Table) (identifier : String), (ofPairs (numbered roms)).Perm others ∧
      others.find? identifier ≠ (ofPairs (numbered roms)).find? identifier := by
  by_contra hidden
  push Not at hidden
  have agree := (Lookup.forall_perm_iff_agree (ofPairs (numbered roms))).mp
    fun others perm identifier => hidden others identifier perm
  have distinct := nodup_of_agree_numbered agree
  exact (Rom.repeated_notMem_iff roms).mpr distinct reported

/-- A table answers with its first row for an identifier, and with nothing exactly if it has none.
Without a repeated identifier each ROM is found with its own data in whatever order the rows stand;
with one, the order can be told from the answers. -/
theorem find?_exact :
    (∀ (table : Table) identifier data, table.find? identifier = some data ↔
      ∃ position, table.FirstAt identifier position data) ∧
    (∀ (table : Table) identifier,
      table.find? identifier = none ↔ ∀ row ∈ table, row.1 ≠ identifier) ∧
    (∀ pairs : List (Rom × Bytes),
      .repeated ∉ (Rom.problems (pairs.map Prod.fst)).map Problem.kind →
      (∀ pair ∈ pairs, (ofPairs pairs).find? pair.1.identifier = some pair.2) ∧
      ∀ others : Table, (ofPairs pairs).Perm others →
        ∀ identifier, others.find? identifier = (ofPairs pairs).find? identifier) ∧
    ∀ roms, .repeated ∈ (Rom.problems roms).map Problem.kind →
      ∃ (pairs : List (Rom × Bytes)) (others : Table) (identifier : String),
        pairs.map Prod.fst = roms ∧ (ofPairs pairs).Perm others ∧
        others.find? identifier ≠ (ofPairs pairs).find? identifier := by
  refine ⟨find?_eq_some_iff, find?_eq_none_iff, ?_, ?_⟩
  · intro pairs unrepeated
    have distinct := (Rom.repeated_notMem_iff _).mp unrepeated
    refine ⟨fun pair listed => find?_ofPairs distinct listed, ?_⟩
    intro others perm identifier
    rw [← keys_ofPairs] at distinct
    exact (Lookup.lookup_eq_of_perm perm distinct identifier).symm
  · intro roms reported
    obtain ⟨others, identifier, perm, differs⟩ := exists_reordered reported
    exact ⟨numbered roms, others, identifier, map_fst_numbered roms, perm, differs⟩

theorem find?_exact_twins :
    let pairs : List (Rom × Bytes) :=
      [(Rom.ofName "PONG", [0x6a, 0x02]), (Rom.ofName "Cave.ch8", []), (Rom.ofName "TANK", [0x12])]
    let moved : Table := [("TANK", [0x12]), ("PONG", [0x6a, 0x02]), ("CAVE_CH8", [])]
    let twins : List Rom := [⟨"a.b", "A_B"⟩, ⟨"A_B", "A_B"⟩]
    .repeated ∉ (Rom.problems (pairs.map Prod.fst)).map Problem.kind ∧
      (ofPairs pairs).Perm moved ∧
      (ofPairs pairs).find? "CAVE_CH8" = some [] ∧ (ofPairs pairs).find? "cave_ch8" = none ∧
      (∀ identifier, moved.find? identifier = (ofPairs pairs).find? identifier) ∧
      .repeated ∈ (Rom.problems twins).map Problem.kind ∧
      ∃ (pairs : List (Rom × Bytes)) (others : Table) (identifier : String),
        pairs.map Prod.fst = twins ∧ (ofPairs pairs).Perm others ∧
        others.find? identifier ≠ (ofPairs pairs).find? identifier := by
  intro pairs moved twins
  obtain ⟨first, absent, settled, needed⟩ := find?_exact
  have unrepeated : .repeated ∉ (Rom.problems (pairs.map Prod.fst)).map Problem.kind := by
    decide +kernel
  have reported : .repeated ∈ (Rom.problems twins).map Problem.kind := by decide +kernel
  have perm : (ofPairs pairs).Perm moved := by decide +kernel
  have found : (ofPairs pairs).find? "CAVE_CH8" = some [] :=
    (first _ _ _).mpr ⟨1, by decide +kernel⟩
  have missing : (ofPairs pairs).find? "cave_ch8" = none := (absent _ _).mpr (by decide +kernel)
  exact ⟨unrepeated, perm, found, missing, (settled pairs unrepeated).2 moved perm, reported,
    needed twins reported⟩

end RomCatalog.Table
