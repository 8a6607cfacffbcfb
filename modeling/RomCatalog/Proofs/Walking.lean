import RomCatalog.FileSystem.Walk

/-!
The walks that come to an end, by rules for one step each. Whether and where a path leads is settled
by what is found at the places on its way, so what holds of a walk is shown rule by rule.
-/

namespace RomCatalog.FileSystem

variable {fs : FileSystem} {purpose : Purpose} {links : Nat} {location : Location}
  {directory : Place} {name : Name} {rest steps : List Step} {landing : Landing}

structure Admits (purpose : Purpose) (name : Name) (rest : List Step) : Prop where
  mayEnd : ¬(purpose = .make ∧ rest = [.close])
  short : ¬nameLimit < name.length

/-- A walk that ends at the landing and has passed at most that many links. -/
inductive Walks (fs : FileSystem) (purpose : Purpose) : Nat → Location → List Step → Landing → Prop
  | nil {links : Nat} {location : Location} : Walks fs purpose links location [] (.at location)
  | stay {links : Nat} {location : Location} {rest : List Step} {landing : Landing} :
      Walks fs purpose links location rest landing →
      Walks fs purpose links location (.stay :: rest) landing
  | close {links : Nat} {location : Location} {rest : List Step} {landing : Landing} :
      Walks fs purpose links location rest landing →
      Walks fs purpose links location (.close :: rest) landing
  | up {links : Nat} {location : Location} {rest : List Step} {landing : Landing} :
      Walks fs purpose links location.up rest landing →
      Walks fs purpose links location (.up :: rest) landing
  | vacant {links : Nat} {directory : Place} {name : Name} : Admits purpose name [] →
      fs.object? (name :: directory) = none →
      Walks fs purpose links (.inTree directory) [.enter name] (.vacant (name :: directory))
  | directory {links : Nat} {directory : Place} {name : Name} {rest : List Step}
      {landing : Landing} : Admits purpose name rest →
      fs.object? (name :: directory) = some .directory →
      Walks fs purpose links (.inTree (name :: directory)) rest landing →
      Walks fs purpose links (.inTree directory) (.enter name :: rest) landing
  | link {links : Nat} {directory : Place} {name : Name} {rest : List Step} {target : Path}
      {landing : Landing} : Admits purpose name rest →
      fs.object? (name :: directory) = some (.link target) → ¬(purpose = .entry ∧ rest = []) →
      Walks fs purpose links (.inTree (if target.isAbsolute then [] else directory))
        (target.steps ++ rest) landing →
      Walks fs purpose (links + 1) (.inTree directory) (.enter name :: rest) landing
  | last {links : Nat} {directory : Place} {name : Name} {object : Object} :
      Admits purpose name [] → fs.object? (name :: directory) = some object →
      object ≠ .directory → (∀ fault, object ≠ .broken fault) →
      (∀ target, object = .link target → purpose = .entry) →
      Walks fs purpose links (.inTree directory) [.enter name] (.at (.inTree (name :: directory)))

theorem walk_nil : fs.walk purpose links location [] = .ok (.at location) := by
  cases links <;> rfl

theorem walk_stay :
    fs.walk purpose links location (.stay :: rest) = fs.walk purpose links location rest := by
  cases links <;> rfl

theorem walk_close :
    fs.walk purpose links location (.close :: rest) = fs.walk purpose links location rest := by
  cases links <;> rfl

theorem walk_up :
    fs.walk purpose links location (.up :: rest) = fs.walk purpose links location.up rest := by
  cases links <;> rfl

theorem admits_of_walk
    (walked : fs.walk purpose links location (.enter name :: rest) = .ok landing) :
    ∃ directory, location = .inTree directory ∧ Admits purpose name rest := by
  have refused (follow : Location → List Step → Except Fault Landing)
      (walked : fs.walkWith purpose follow location (.enter name :: rest) = .ok landing) :
      ∃ directory, location = .inTree directory ∧ Admits purpose name rest := by
    cases location with
    | removed above =>
        simp only [walkWith] at walked
        split at walked
        · simp at walked
        · simp at walked
    | inTree directory =>
        simp only [walkWith] at walked
        split at walked
        · simp at walked
        rename_i mayEnd
        split at walked
        · simp at walked
        rename_i short
        exact ⟨directory, rfl, mayEnd, short⟩
  cases links with
  | zero => exact refused _ walked
  | succ links => exact refused _ walked

theorem walk_enter (admits : Admits purpose name rest) :
    fs.walk purpose links (.inTree directory) (.enter name :: rest) =
      match fs.object? (name :: directory) with
      | none => if rest = [] then .ok (.vacant (name :: directory)) else .error .notFound
      | some .directory => fs.walk purpose links (.inTree (name :: directory)) rest
      | some (.broken fault) => .error fault
      | some (.link target) =>
          if purpose = .entry ∧ rest = [] then .ok (.at (.inTree (name :: directory)))
          else
            match links with
            | 0 => .error .tooManyLinks
            | links + 1 => fs.walk purpose links
                (.inTree (if target.isAbsolute then [] else directory)) (target.steps ++ rest)
      | some _ =>
          if rest = [] then .ok (.at (.inTree (name :: directory))) else .error .notDirectory := by
  cases links with
  | zero => exact (if_neg admits.mayEnd).trans (if_neg admits.short)
  | succ links => exact (if_neg admits.mayEnd).trans (if_neg admits.short)

theorem walks_of_walk (walked : fs.walk purpose links location steps = .ok landing) :
    fs.Walks purpose links location steps landing := by
  -- links lead anywhere, so the steps are counted within the number of links that are left
  induction links using Nat.strongRecOn generalizing location steps with
  | ind links fewer =>
      induction steps generalizing location with
      | nil =>
          rw [walk_nil, Except.ok.injEq] at walked
          rw [← walked]
          exact .nil
      | cons step rest ih =>
          cases step with
          | stay => exact .stay (ih (walk_stay.symm.trans walked))
          | close => exact .close (ih (walk_close.symm.trans walked))
          | up => exact .up (ih (walk_up.symm.trans walked))
          | enter name =>
              obtain ⟨directory, rfl, admits⟩ := admits_of_walk walked
              rw [walk_enter admits] at walked
              split at walked
              · rename_i absent
                split at walked
                · rename_i isLast
                  subst isLast
                  rw [← Except.ok.inj walked]
                  exact .vacant admits absent
                · simp at walked
              · rename_i present
                exact .directory admits present (ih walked)
              · simp at walked
              · rename_i target present
                split at walked
                · rename_i wanted
                  obtain ⟨entry, rfl⟩ := wanted
                  rw [← Except.ok.inj walked]
                  exact .last admits present (by simp) (by simp) fun _ _ => entry
                · rename_i followed
                  split at walked
                  · simp at walked
                  · rename_i links
                    exact .link admits present followed (fewer links (Nat.lt_succ_self _) walked)
              · rename_i object notDirectory notBroken notLink present
                split at walked
                · rename_i isLast
                  subst isLast
                  rw [← Except.ok.inj walked]
                  exact .last admits present notDirectory notBroken
                    fun target same => (notLink target same).elim
                · simp at walked

theorem walk_of_walks (walks : fs.Walks purpose links location steps landing) :
    fs.walk purpose links location steps = .ok landing := by
  induction walks with
  | nil => exact walk_nil
  | stay _ ih => exact walk_stay.trans ih
  | close _ ih => exact walk_close.trans ih
  | up _ ih => exact walk_up.trans ih
  | vacant admits absent => simp [walk_enter admits, absent]
  | directory admits present _ ih => simpa [walk_enter admits, present] using ih
  | link admits present followed _ ih => simpa [walk_enter admits, present, followed] using ih
  | @last _ _ _ object admits present notDirectory notBroken wanted =>
      rw [walk_enter admits, present]
      cases object with
      | directory => exact absurd rfl notDirectory
      | link target => simp [wanted target rfl]
      | file contents => simp
      | pipe => simp
      | device device => simp
      | broken fault => exact absurd rfl (notBroken fault)

theorem walk_eq_ok_iff : fs.walk purpose links location steps = .ok landing ↔
    fs.Walks purpose links location steps landing :=
  ⟨walks_of_walk, walk_of_walks⟩

theorem land_eq_ok_iff {path : Path} : fs.land purpose path = .ok landing ↔
    0 ∉ path.bytes ∧ path.bytes ≠ [] ∧ ¬pathLimit < path.bytes.length ∧
      fs.Walks purpose linkLimit (fs.startOf path) path.steps landing := by
  unfold land
  split
  · rename_i zero
    simp [zero]
  split
  · rename_i empty
    simp [empty]
  split
  · rename_i long
    simp [long]
  · rename_i noZero notEmpty short
    simp only [noZero, notEmpty, short, not_false_eq_true, ne_eq, true_and, walk_eq_ok_iff]

end RomCatalog.FileSystem
