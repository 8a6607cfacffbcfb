import RomCatalog.FileSystem.Access
import RomCatalog.Proofs.Lookup
import RomCatalog.Proofs.Walking

/-!
A file is written where a path leads. The place of the file is the only one at which anything
changes, and the path that led there still does, so that what was written is what is read.
-/

namespace RomCatalog.FileSystem

variable {fs after : FileSystem} {place other : Place} {object : Object} {contents : Bytes}

theorem eq_of_objects_eq (objects : fs.objects = after.objects)
    (current : fs.current = after.current) : fs = after := by
  cases fs
  cases after
  cases objects
  cases current
  rfl

theorem object?_of_ne_nil (named : place ≠ []) :
    fs.object? place = List.lookup place fs.objects := by
  simp [object?, named]

theorem objects_put_of_mem (present : place ∈ fs.objects.map Prod.fst) :
    (fs.put place object).objects =
      fs.objects.map fun entry => if entry.1 = place then (place, object) else entry := by
  simp [put, present]

theorem objects_put_of_notMem (absent : place ∉ fs.objects.map Prod.fst) :
    (fs.put place object).objects = (place, object) :: fs.objects := by
  simp [put, absent]

theorem mem_objects_put : (place, object) ∈ (fs.put place object).objects := by
  by_cases present : place ∈ fs.objects.map Prod.fst
  · obtain ⟨entry, member, same⟩ := List.mem_map.mp present
    rw [objects_put_of_mem present]
    exact List.mem_map.mpr ⟨entry, member, by simp [same]⟩
  · rw [objects_put_of_notMem present]
    exact List.mem_cons_self

theorem filter_objects_put :
    ((fs.put place object).objects.filter fun entry => entry.1 ≠ place) =
      fs.objects.filter fun entry => entry.1 ≠ place := by
  by_cases present : place ∈ fs.objects.map Prod.fst
  · rw [objects_put_of_mem present, List.filter_map]
    have kept : ((fun entry : Place × Object => decide (entry.1 ≠ place)) ∘
        fun entry => if entry.1 = place then (place, object) else entry) =
          fun entry => decide (entry.1 ≠ place) := by
      funext entry
      by_cases same : entry.1 = place
      · simp [same]
      · simp [same]
    rw [kept]
    refine (List.map_congr_left ?_).trans (List.map_id _)
    intro entry member
    have differs : entry.1 ≠ place := by simpa using (List.mem_filter.mp member).2
    simp [differs]
  · rw [objects_put_of_notMem present]
    simp

theorem object?_put_self (named : place ≠ []) :
    (fs.put place object).object? place = some object := by
  rw [object?_of_ne_nil named]
  exact (Lookup.lookup_eq_some_iff_mem (fs.put place object).unique place object).mpr
    mem_objects_put

theorem mem_objects_iff_of_filter_eq (differs : other ≠ place)
    (same : (after.objects.filter fun entry => entry.1 ≠ place) =
      fs.objects.filter fun entry => entry.1 ≠ place) :
    (other, object) ∈ after.objects ↔ (other, object) ∈ fs.objects := by
  have member (state : FileSystem) : (other, object) ∈ state.objects ↔
      (other, object) ∈ state.objects.filter fun entry => entry.1 ≠ place := by
    simp [List.mem_filter, differs]
  rw [member, same, ← member]

theorem object?_put_of_ne (differs : other ≠ place) :
    (fs.put place object).object? other = fs.object? other := by
  by_cases isRoot : other = []
  · simp [object?, isRoot]
  · rw [object?_of_ne_nil isRoot, object?_of_ne_nil isRoot]
    apply Option.ext
    intro found
    rw [Lookup.lookup_eq_some_iff_mem (fs.put place object).unique,
      Lookup.lookup_eq_some_iff_mem fs.unique,
      mem_objects_iff_of_filter_eq differs filter_objects_put]

theorem put_put (first second : Object) :
    (fs.put place first).put place second = fs.put place second := by
  refine eq_of_objects_eq ?_ rfl
  by_cases present : place ∈ fs.objects.map Prod.fst
  · have still : place ∈ (fs.put place first).objects.map Prod.fst :=
      List.mem_map.mpr ⟨_, mem_objects_put, rfl⟩
    rw [objects_put_of_mem still, objects_put_of_mem present, objects_put_of_mem present,
      List.map_map]
    refine List.map_congr_left ?_
    intro entry _
    by_cases same : entry.1 = place
    · simp [same]
    · simp [same]
  · have still : place ∈ (fs.put place first).objects.map Prod.fst :=
      List.mem_map.mpr ⟨_, mem_objects_put, rfl⟩
    rw [objects_put_of_mem still, objects_put_of_notMem present, objects_put_of_notMem present]
    simp only [List.map_cons, if_true, List.cons.injEq, true_and]
    refine (List.map_congr_left ?_).trans (List.map_id _)
    intro entry member
    have differs : entry.1 ≠ place := by
      intro same
      exact present (List.mem_map.mpr ⟨entry, member, same⟩)
    simp [differs]

theorem put_of_object? (named : place ≠ []) (present : fs.object? place = some object) :
    fs.put place object = fs := by
  rw [object?_of_ne_nil named] at present
  have member := (Lookup.lookup_eq_some_iff_mem fs.unique place object).mp present
  refine eq_of_objects_eq ?_ rfl
  rw [objects_put_of_mem (List.mem_map.mpr ⟨_, member, rfl⟩)]
  refine (List.map_congr_left ?_).trans (List.map_id _)
  rintro ⟨other, held⟩ listed
  by_cases same : other = place
  · subst same
    rw [(Lookup.lookup_eq_some_iff_mem fs.unique other held).mpr listed, Option.some.injEq]
      at present
    simp [present]
  · simp [same]

/-- Where a walk has to end for a regular file to be written there. -/
inductive Takes (fs : FileSystem) (place : Place) : Landing → Prop
  | vacant : fs.object? place = none → Takes fs place (.vacant place)
  | file (contents : Bytes) : fs.object? place = some (.file contents) →
      Takes fs place (.at (.inTree place))

theorem Takes.ne_directory {landing : Landing} (takes : Takes fs place landing) :
    fs.object? place ≠ some .directory := by
  cases takes with
  | vacant absent => simp [absent]
  | file _ present => simp [present]

theorem Takes.ne_link {landing : Landing} (takes : Takes fs place landing) (target : Path) :
    fs.object? place ≠ some (.link target) := by
  cases takes with
  | vacant absent => simp [absent]
  | file _ present => simp [present]

theorem Takes.ne_nil {landing : Landing} (takes : Takes fs place landing) : place ≠ [] := by
  rintro rfl
  exact takes.ne_directory rfl

theorem Walks.follow_of_make {links : Nat} {location : Location} {steps : List Step}
    {landing : Landing} (walks : fs.Walks .make links location steps landing) :
    fs.Walks .follow links location steps landing := by
  have admitted {name : Name} {rest : List Step} (admits : Admits .make name rest) :
      Admits .follow name rest := ⟨by simp, admits.short⟩
  induction walks with
  | nil => exact .nil
  | stay _ ih => exact .stay ih
  | close _ ih => exact .close ih
  | up _ ih => exact .up ih
  | vacant admits absent => exact .vacant (admitted admits) absent
  | directory admits present _ ih => exact .directory (admitted admits) present ih
  | link admits present _ _ ih => exact .link (admitted admits) present (by simp) ih
  | last admits present notDirectory notBroken wanted =>
      refine .last (admitted admits) present notDirectory notBroken ?_
      intro target same
      exact absurd (wanted target same) (by simp)

theorem land_follow_of_make {path : Path} {landing : Landing}
    (landed : fs.land .make path = .ok landing) : fs.land .follow path = .ok landing := by
  rw [land_eq_ok_iff] at landed ⊢
  obtain ⟨noZero, notEmpty, short, walks⟩ := landed
  exact ⟨noZero, notEmpty, short, walks.follow_of_make⟩

theorem Walks.put {purpose : Purpose} {links : Nat} {location : Location} {steps : List Step}
    {landing : Landing} (takes : Takes fs place landing)
    (walks : fs.Walks purpose links location steps landing) :
    (fs.put place (.file contents)).Walks purpose links location steps (.at (.inTree place)) := by
  induction walks with
  | nil =>
      cases takes
      exact .nil
  | stay _ ih => exact .stay (ih takes)
  | close _ ih => exact .close (ih takes)
  | up _ ih => exact .up (ih takes)
  | vacant admits _ =>
      cases takes
      exact .last admits (object?_put_self (by simp)) (by simp) (by simp) (by simp)
  | last admits _ _ _ _ =>
      cases takes
      exact .last admits (object?_put_self (by simp)) (by simp) (by simp) (by simp)
  -- the place holds nothing or a file, so no walk goes on from there
  | @directory _ directory name _ _ admits present _ ih =>
      have elsewhere : name :: directory ≠ place := by
        rintro rfl
        exact takes.ne_directory present
      exact .directory admits ((object?_put_of_ne elsewhere).trans present) (ih takes)
  | @link _ directory name _ _ _ admits present followed _ ih =>
      have elsewhere : name :: directory ≠ place := by
        rintro rfl
        exact takes.ne_link _ present
      exact .link admits ((object?_put_of_ne elsewhere).trans present) followed (ih takes)

theorem land_put {purpose : Purpose} {path : Path} {landing : Landing}
    (takes : Takes fs place landing) (landed : fs.land purpose path = .ok landing) :
    (fs.put place (.file contents)).land purpose path = .ok (.at (.inTree place)) := by
  rw [land_eq_ok_iff] at landed ⊢
  obtain ⟨noZero, notEmpty, short, walks⟩ := landed
  exact ⟨noZero, notEmpty, short, walks.put takes⟩

theorem locate_put {path : Path} {landing : Landing} (takes : Takes fs place landing)
    (landed : fs.land .make path = .ok landing) :
    (fs.put place (.file contents)).locate .follow path =
      .ok (.inTree place, .file contents) := by
  have found : (fs.put place (.file contents)).land .follow path = .ok (.at (.inTree place)) :=
    land_put takes (land_follow_of_make landed)
  simp only [locate, found, objectAt?, object?_put_self takes.ne_nil]

theorem Walks.object?_of_vacant {purpose : Purpose} {links : Nat} {location : Location}
    {steps : List Step} {landing : Landing} (walks : fs.Walks purpose links location steps landing)
    (ends : landing = .vacant place) : fs.object? place = none := by
  induction walks with
  | nil => simp at ends
  | stay _ ih => exact ih ends
  | close _ ih => exact ih ends
  | up _ ih => exact ih ends
  | vacant _ absent =>
      rw [← Landing.vacant.inj ends]
      exact absent
  | directory _ _ _ ih => exact ih ends
  | link _ _ _ _ ih => exact ih ends
  | last _ _ _ _ _ => simp at ends

theorem object?_of_land_vacant {purpose : Purpose} {path : Path}
    (landed : fs.land purpose path = .ok (.vacant place)) : fs.object? place = none := by
  obtain ⟨_, _, _, walks⟩ := land_eq_ok_iff.mp landed
  exact walks.object?_of_vacant rfl

def IsSpecial (fs : FileSystem) (path : Path) : Prop :=
  fs.stat path = .ok .pipe ∨ ∃ device, fs.stat path = .ok (.device device)

theorem not_isSpecial_of_stat {path : Path} (regular : fs.stat path = .ok (.file contents)) :
    ¬fs.IsSpecial path := by
  rintro (piped | ⟨device, special⟩)
  · simp [regular] at piped
  · simp [regular] at special

/-- What opening a path for writing comes to, if it succeeds. -/
inductive Opens (fs : FileSystem) (path : Path) : FileSystem → Sink → Prop
  | file {place : Place} {landing : Landing} : fs.land .make path = .ok landing →
      Takes fs place landing → Opens fs path (fs.put place (.file [])) (.file place)
  | special {sink : Sink} : fs.IsSpecial path → (∀ place, sink ≠ .file place) →
      Opens fs path fs sink

theorem stat_of_land {path : Path} (landed : fs.land .make path = .ok (.at (.inTree place)))
    (present : fs.object? place = some object) (notBroken : ∀ fault, object ≠ .broken fault)
    (notLink : ∀ target, object ≠ .link target) : fs.stat path = .ok object := by
  cases object with
  | broken fault => exact absurd rfl (notBroken fault)
  | link target => exact absurd rfl (notLink target)
  | file _ | directory | pipe | device _ =>
      simp only [stat, locate, land_follow_of_make landed, objectAt?, present]
      rfl

theorem opens_of_create {path : Path} {opened : FileSystem} {sink : Sink}
    (created : fs.create path = .ok (opened, sink)) : Opens fs path opened sink := by
  unfold create at created
  split at created
  · simp at created
  · rename_i place landed
    simp only [Outcome.ok.injEq, Prod.mk.injEq] at created
    obtain ⟨rfl, rfl⟩ := created
    exact .file landed (.vacant (object?_of_land_vacant landed))
  · simp at created
  · rename_i place landed
    split at created
    · rename_i old present
      simp only [Outcome.ok.injEq, Prod.mk.injEq] at created
      obtain ⟨rfl, rfl⟩ := created
      exact .file landed (.file old present)
    · simp at created
    · simp at created
    · rename_i device present
      simp only [Outcome.ok.injEq, Prod.mk.injEq] at created
      obtain ⟨rfl, rfl⟩ := created
      exact .special (.inr ⟨device, stat_of_land landed present (by simp) (by simp)⟩) (by simp)
    · simp at created
    · simp at created
    · simp at created

theorem stat_of_create_endless {path : Path} (waits : fs.create path = .endless) :
    fs.stat path = .ok .pipe := by
  unfold create at waits
  split at waits
  · simp at waits
  · simp at waits
  · simp at waits
  · rename_i place landed
    split at waits
    · simp at waits
    · simp at waits
    · rename_i present
      exact stat_of_land landed present (by simp) (by simp)
    · simp at waits
    · simp at waits
    · simp at waits
    · simp at waits

theorem files_of_write {opened : FileSystem} {sink : Sink} (notFile : ∀ place, sink ≠ .file place)
    {written : FileSystem} (wrote : opened.write sink contents = .ok written) :
    written = opened := by
  cases sink with
  | file place => exact absurd rfl (notFile place)
  | device device =>
      cases device with
      | discards => exact (Except.ok.inj wrote).symm
      | full => simp [write] at wrote

end RomCatalog.FileSystem
