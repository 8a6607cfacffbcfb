import RomCatalog.FileSystem.Access
import RomCatalog.Proofs.Walking

/-!
The trail of a walk: the places at which it looks. Where a path leads depends on what is found on
its trail and on nothing else, and one regular file is as good as another there.
-/

namespace RomCatalog.FileSystem

/-- The places at which a walk looks on from a directory; `follow` gives those behind a link. -/
def trailWith (fs : FileSystem) (follow : Location → List Step → List Place) :
    Location → List Step → List Place
  | .inTree place, [] => [place]
  | .removed _, [] => []
  | location, .stay :: rest => trailWith fs follow location rest
  | location, .close :: rest => trailWith fs follow location rest
  | location, .up :: rest => trailWith fs follow location.up rest
  | .removed _, .enter _ :: _ => []
  | .inTree place, .enter name :: rest =>
      if nameLimit < name.length then []
      else
        (name :: place) ::
          match fs.object? (name :: place) with
          | some .directory => trailWith fs follow (.inTree (name :: place)) rest
          | some (.link target) =>
              follow (.inTree (if target.isAbsolute then [] else place)) (target.steps ++ rest)
          | _ => []

def trail (fs : FileSystem) : Nat → Location → List Step → List Place
  | 0 => trailWith fs fun _ _ => []
  | links + 1 => trailWith fs (trail fs links)

/-- The places at which the resolution of a path looks, the one to which it leads included. -/
def trailOf (fs : FileSystem) (path : Path) : List Place :=
  fs.trail linkLimit (fs.startOf path) path.steps

/-- Findings that no walk can tell apart. -/
inductive Alike : Option Object → Option Object → Prop
  | same (found : Option Object) : Alike found found
  | files (old new : Bytes) : Alike (some (.file old)) (some (.file new))

variable {fs other : FileSystem} {purpose : Purpose} {links : Nat} {location : Location}
  {directory place : Place} {name : Name} {rest steps : List Step} {landing : Landing}

theorem trail_nil : fs.trail links (.inTree place) [] = [place] := by
  cases links <;> simp [trail, trailWith]

theorem trail_nil_removed {above : Location} : fs.trail links (.removed above) [] = [] := by
  cases links <;> simp [trail, trailWith]

theorem trail_stay :
    fs.trail links location (.stay :: rest) = fs.trail links location rest := by
  cases links <;> simp [trail, trailWith]

theorem trail_close :
    fs.trail links location (.close :: rest) = fs.trail links location rest := by
  cases links <;> simp [trail, trailWith]

theorem trail_up :
    fs.trail links location (.up :: rest) = fs.trail links location.up rest := by
  cases links <;> simp [trail, trailWith]

theorem trail_enter (short : ¬nameLimit < name.length) :
    fs.trail links (.inTree directory) (.enter name :: rest) =
      (name :: directory) ::
        match fs.object? (name :: directory) with
        | some .directory => fs.trail links (.inTree (name :: directory)) rest
        | some (.link target) =>
            match links with
            | 0 => []
            | links + 1 =>
                fs.trail links (.inTree (if target.isAbsolute then [] else directory))
                  (target.steps ++ rest)
        | _ => [] := by
  cases links with
  | zero => exact (trailWith.eq_def ..).trans (if_neg short)
  | succ links => exact (trailWith.eq_def ..).trans (if_neg short)

theorem walk_removed {above : Location} :
    fs.walk purpose links (.removed above) (.enter name :: rest) =
      other.walk purpose links (.removed above) (.enter name :: rest) := by
  cases links <;> rfl

theorem walk_refused (refused : ¬Admits purpose name rest) :
    fs.walk purpose links (.inTree directory) (.enter name :: rest) =
      if purpose = .make ∧ rest = [.close] then .error .isDirectory else .error .nameTooLong := by
  have stopped (follow : Location → List Step → Except Fault Landing) :
      fs.walkWith purpose follow (.inTree directory) (.enter name :: rest) =
        if purpose = .make ∧ rest = [.close] then .error .isDirectory else .error .nameTooLong := by
    rw [walkWith]
    split
    · rfl
    · rename_i mayEnd
      have long : nameLimit < name.length :=
        Decidable.byContradiction fun short => refused ⟨mayEnd, short⟩
      exact if_pos long
  cases links with
  | zero => exact stopped _
  | succ links => exact stopped _

theorem walk_eq_of_alike
    (alike : ∀ place ∈ fs.trail links location steps,
      Alike (fs.object? place) (other.object? place)) :
    other.walk purpose links location steps = fs.walk purpose links location steps := by
  induction links using Nat.strongRecOn generalizing location steps with
  | ind links fewer =>
      induction steps generalizing location with
      | nil => rw [walk_nil, walk_nil]
      | cons step rest ih =>
          cases step with
          | stay =>
              rw [trail_stay] at alike
              rw [walk_stay, walk_stay, ih alike]
          | close =>
              rw [trail_close] at alike
              rw [walk_close, walk_close, ih alike]
          | up =>
              rw [trail_up] at alike
              rw [walk_up, walk_up, ih alike]
          | enter name =>
              cases location with
              | removed above => exact walk_removed
              | inTree directory =>
                  by_cases admits : Admits purpose name rest
                  · rw [trail_enter admits.short, List.forall_mem_cons] at alike
                    obtain ⟨here, further⟩ := alike
                    rw [walk_enter admits, walk_enter admits]
                    generalize fs.object? (name :: directory) = found at here further
                    generalize other.object? (name :: directory) = refound at here
                    cases here with
                    | files old new => rfl
                    | same =>
                        cases found with
                        | none => rfl
                        | some object =>
                            cases object with
                            | file contents => rfl
                            | pipe => rfl
                            | device device => rfl
                            | broken fault => rfl
                            | directory => exact ih further
                            | link target =>
                                cases links with
                                | zero => rfl
                                | succ links =>
                                    simp only [fewer links (Nat.lt_succ_self _) further]
                  · rw [walk_refused admits, walk_refused admits]

theorem Walks.mem_trail (walks : fs.Walks purpose links location steps landing)
    (ends : landing = .at (.inTree place)) : place ∈ fs.trail links location steps := by
  induction walks with
  | nil =>
      rw [Landing.at.inj ends, trail_nil]
      exact List.mem_singleton_self place
  | stay _ ih =>
      rw [trail_stay]
      exact ih ends
  | close _ ih =>
      rw [trail_close]
      exact ih ends
  | up _ ih =>
      rw [trail_up]
      exact ih ends
  | vacant _ _ => simp at ends
  | directory admits present _ ih =>
      simp only [trail_enter admits.short, present]
      exact List.mem_cons_of_mem _ (ih ends)
  | link admits present _ _ ih =>
      simp only [trail_enter admits.short, present]
      exact List.mem_cons_of_mem _ (ih ends)
  | last admits _ _ _ _ =>
      rw [trail_enter admits.short, ← Location.inTree.inj (Landing.at.inj ends)]
      exact List.mem_cons_self

theorem Walks.object?_of_mem_trail (walks : fs.Walks purpose links location steps landing)
    {goal : Location} (ends : landing = .at goal)
    (isDirectory : fs.objectAt? goal = some .directory)
    (passed : place ∈ fs.trail links location steps) :
    fs.object? place = some .directory ∨ ∃ target, fs.object? place = some (.link target) := by
  induction walks with
  | @nil _ location =>
      rw [← Landing.at.inj ends] at isDirectory
      cases location with
      | removed above =>
          rw [trail_nil_removed] at passed
          simp at passed
      | inTree directory =>
          rw [trail_nil, List.mem_singleton] at passed
          rw [passed]
          exact .inl isDirectory
  | stay _ ih =>
      rw [trail_stay] at passed
      exact ih ends passed
  | close _ ih =>
      rw [trail_close] at passed
      exact ih ends passed
  | up _ ih =>
      rw [trail_up] at passed
      exact ih ends passed
  | vacant _ _ => simp at ends
  | directory admits present _ ih =>
      simp only [trail_enter admits.short, present, List.mem_cons] at passed
      rcases passed with rfl | later
      · exact .inl present
      · exact ih ends later
  | @link _ _ _ _ target _ admits present _ _ ih =>
      simp only [trail_enter admits.short, present, List.mem_cons] at passed
      rcases passed with rfl | later
      · exact .inr ⟨target, present⟩
      · exact ih ends later
  | last _ present notDirectory _ _ =>
      rw [← Landing.at.inj ends, objectAt?, present, Option.some.injEq] at isDirectory
      exact absurd isDirectory notDirectory

/-! Paths. -/

theorem land_eq_of_alike (purpose : Purpose) {path : Path}
    (alike : ∀ place ∈ fs.trailOf path, Alike (fs.object? place) (other.object? place))
    (here : other.current = fs.current) :
    other.land purpose path = fs.land purpose path := by
  have start : other.startOf path = fs.startOf path := by rw [startOf, startOf, here]
  rw [land, land, start, walk_eq_of_alike alike]

theorem locate_of_alike (purpose : Purpose) {path : Path}
    (alike : ∀ place ∈ fs.trailOf path, Alike (fs.object? place) (other.object? place))
    (here : other.current = fs.current) :
    other.locate purpose path = fs.locate purpose path ∨
      ∃ location old new, fs.locate purpose path = .ok (location, .file old) ∧
        other.locate purpose path = .ok (location, .file new) := by
  have landed := land_eq_of_alike purpose alike here
  cases found : fs.land purpose path with
  | error fault => exact .inl (by simp only [locate, landed, found])
  | ok landing =>
      cases landing with
      | vacant place => exact .inl (by simp only [locate, landed, found])
      | «at» location =>
          cases location with
          | removed above => exact .inl (by simp only [locate, landed, found, objectAt?])
          | inTree place =>
              have onTrail : place ∈ fs.trailOf path :=
                (land_eq_ok_iff.mp found).2.2.2.mem_trail rfl
              have met := alike place onTrail
              simp only [locate, landed, found, objectAt?]
              generalize fs.object? place = object at met
              generalize other.object? place = reobject at met
              cases met with
              | same => exact .inl rfl
              | files old new => exact .inr ⟨_, old, new, rfl, rfl⟩

theorem isLink_of_alike {path : Path}
    (alike : ∀ place ∈ fs.trailOf path, Alike (fs.object? place) (other.object? place))
    (here : other.current = fs.current) :
    other.isLink path = fs.isLink path := by
  rcases locate_of_alike .entry alike here with same | ⟨_, _, _, found, refound⟩
  · rw [isLink, isLink, same]
  · rw [isLink, isLink, found, refound]

theorem stat_of_alike {path : Path}
    (alike : ∀ place ∈ fs.trailOf path, Alike (fs.object? place) (other.object? place))
    (here : other.current = fs.current) :
    other.stat path = fs.stat path ∨
      ∃ old new, fs.stat path = .ok (.file old) ∧ other.stat path = .ok (.file new) := by
  rcases locate_of_alike .follow alike here with same | ⟨_, old, new, found, refound⟩
  · exact .inl (by rw [stat, stat, same])
  · exact .inr ⟨old, new, by rw [stat, found]; rfl, by rw [stat, refound]; rfl⟩

end RomCatalog.FileSystem
