import RomCatalog.Proofs.Rotation

/-!
Stepping with arithmetic that gives up where a word cannot hold the result. The steps give up for a
single index, which no run comes to: what a step leaves behind lies inside the table as it is then,
and a table that changes its length afterwards does not move the index.
-/

namespace RomCatalog

namespace Word

def last : UInt64 := 18446744073709551615

def sum? (a b : UInt64) : Option UInt64 :=
  if a.toNat + b.toNat < UInt64.size then some (a + b) else none

def difference? (a b : UInt64) : Option UInt64 :=
  if b ≤ a then some (a - b) else none

def remainder? (a b : UInt64) : Option UInt64 :=
  if b = 0 then none else some (a % b)

theorem ne_last_of_lt {a b : UInt64} (less : a < b) : a ≠ last := by
  rintro rfl
  have bound := b.toNat_lt
  have above : 18446744073709551615 < b.toNat := UInt64.lt_iff_toNat_lt.mp less
  omega

theorem sum?_one (a : UInt64) : sum? a 1 = if a = last then none else some (a + 1) := by
  have bound := a.toNat_lt
  by_cases isLast : a = last
  · rw [if_pos isLast, isLast]
    rfl
  · have smaller : a.toNat ≠ 18446744073709551615 := fun same => isLast (UInt64.toNat_inj.mp same)
    have fits : a.toNat + (1 : UInt64).toNat < UInt64.size := by
      rw [UInt64.toNat_one, UInt64.size]
      omega
    rw [if_neg isLast, sum?, if_pos fits]

theorem difference?_one {a : UInt64} (positive : a ≠ 0) : difference? a 1 = some (a - 1) :=
  if_pos (one_le positive)

theorem remainder?_of_ne_zero {a b : UInt64} (positive : b ≠ 0) : remainder? a b = some (a % b) :=
  if_neg positive

end Word

namespace Menu

def next? (length current : UInt64) : Option UInt64 :=
  if length = 0 then some 0
  else do
    let following ← Word.sum? current 1
    Word.remainder? following length

def previous? (length current : UInt64) : Option UInt64 :=
  if length = 0 then some 0
  else if current = 0 then Word.difference? length 1
  else do
    let before ← Word.difference? current 1
    let final ← Word.difference? length 1
    return min before final

def State.act? (state : State) : Action → Option State
  | .next => (next? state.length state.current).map fun current => { state with current := current }
  | .previous =>
      (previous? state.length state.current).map fun current => { state with current := current }
  | .resize length => some { state with length := length }
  | .select current => some { state with current := current }

def State.run? (state : State) : List Action → Option (List State)
  | [] => some []
  | action :: rest => do
      let reached ← state.act? action
      let later ← reached.run? rest
      return reached :: later

/-- The index is that of a row, or zero if there are no rows. -/
def State.Inside (state : State) : Prop :=
  (state.length ≠ 0 → state.current < state.length) ∧ (state.length = 0 → state.current = 0)

variable {length current : UInt64} {state : State} {action : Action} {actions : List Action}

/-! One step. -/

theorem next?_eq (length current : UInt64) :
    next? length current =
      if length ≠ 0 ∧ current = Word.last then none else some (next length current) := by
  by_cases empty : length = 0
  · simp [next?, next, empty]
  by_cases isLast : current = Word.last
  · simp [next?, empty, isLast, Word.sum?_one]
  · simp [next?, next, empty, isLast, Word.sum?_one, Word.remainder?_of_ne_zero empty]

theorem previous?_eq (length current : UInt64) :
    previous? length current = some (previous length current) := by
  by_cases empty : length = 0
  · simp [previous?, previous, empty]
  by_cases first : current = 0
  · simp [previous?, previous, empty, first, Word.difference?_one empty]
  · simp [previous?, previous, empty, first, Word.difference?_one empty,
      Word.difference?_one first]

theorem next_lt (positive : length ≠ 0) : next length current < length := by
  rw [next, if_neg positive, UInt64.lt_iff_toNat_lt, UInt64.toNat_mod]
  exact Nat.mod_lt _ (Word.toNat_pos positive)

theorem previous_lt (positive : length ≠ 0) : previous length current < length := by
  have final : length - 1 < length := by
    rw [UInt64.lt_iff_toNat_lt, Word.toNat_sub_one positive]
    exact Nat.sub_one_lt_of_lt (Word.toNat_pos positive)
  rw [previous, if_neg positive]
  split
  · exact final
  · change (if current - 1 ≤ length - 1 then current - 1 else length - 1) < length
    split
    · rename_i nearer
      exact UInt64.lt_of_le_of_lt nearer final
    · exact final

theorem inside_act (isTurn : action.isTurn = true) : (state.act action).Inside := by
  rcases eq_of_isTurn isTurn with rfl | rfl
  · exact ⟨next_lt, fun empty => if_pos empty⟩
  · exact ⟨previous_lt, fun empty => if_pos empty⟩

theorem ne_last_of_inside (inside : state.Inside) : state.current ≠ Word.last := by
  by_cases empty : state.length = 0
  · rw [inside.2 empty]
    decide
  · exact Word.ne_last_of_lt (inside.1 empty)

theorem act?_of_ne_last (smaller : state.current ≠ Word.last) :
    state.act? action = some (state.act action) := by
  cases action with
  | next => simp [State.act?, State.act, next?_eq, smaller]
  | previous => simp [State.act?, State.act, previous?_eq]
  | resize _ => rfl
  | select _ => rfl

theorem current_act_ne_last (smaller : state.current ≠ Word.last)
    (unselected : ∀ current, action ≠ .select current) :
    (state.act action).current ≠ Word.last := by
  cases action with
  | next => exact ne_last_of_inside (inside_act rfl)
  | previous => exact ne_last_of_inside (inside_act rfl)
  | resize length => exact smaller
  | select current => exact absurd rfl (unselected current)

/-! Runs. -/

theorem run?_of_ne_last (smaller : state.current ≠ Word.last)
    (unselected : ∀ current, .select current ∉ actions) :
    state.run? actions = some (state.run actions) := by
  induction actions generalizing state with
  | nil => rfl
  | cons action rest ih =>
      have kept : (state.act action).current ≠ Word.last := by
        refine current_act_ne_last smaller ?_
        rintro current rfl
        exact unselected current List.mem_cons_self
      have later := ih kept fun current member => unselected current (List.mem_cons_of_mem _ member)
      simp [State.run?, State.run, act?_of_ne_last smaller, later]

theorem getElem?_run {index : Nat} (state : State) (performed : actions[index]? = some action) :
    ∃ before, (state.run actions)[index]? = some (State.act before action) := by
  induction actions generalizing state index with
  | nil => simp at performed
  | cons first rest ih =>
      cases index with
      | zero =>
          rw [List.getElem?_cons_zero, Option.some.injEq] at performed
          subst performed
          exact ⟨state, rfl⟩
      | succ index => exact ih (state.act first) performed

/-- Steps and changes of the length in any order never bring an index at which word arithmetic
gives up, and after each step the index lies inside the table as it is at that time. -/
theorem run?_eq_some_run (state : State) (actions : List Action)
    (smaller : state.current ≠ Word.last) (unselected : ∀ current, .select current ∉ actions) :
    state.run? actions = some (state.run actions) ∧
    ∀ (index : Nat) (action : Action), actions[index]? = some action → action.isTurn = true →
      ∃ reached, (state.run actions)[index]? = some reached ∧ reached.Inside := by
  refine ⟨run?_of_ne_last smaller unselected, ?_⟩
  intro index action performed isTurn
  obtain ⟨before, present⟩ := getElem?_run state performed
  exact ⟨before.act action, present, inside_act isTurn⟩

theorem run?_eq_some_run_resized :
    let start : State := ⟨5, 18446744073709551614⟩
    let actions : List Action := [.next, .resize Word.last, .previous, .previous, .previous,
      .previous, .next, .resize 0, .next, .resize 2, .previous]
    start.current ≠ Word.last ∧ (∀ current, .select current ∉ actions) ∧
      start.run? actions = some (start.run actions) ∧
      actions[10]? = some .previous ∧ Action.isTurn .previous = true ∧
      ∃ reached, (start.run actions)[10]? = some reached ∧ reached.Inside := by
  have unselected (current : UInt64) : .select current ∉ ([.next, .resize Word.last, .previous,
      .previous, .previous, .previous, .next, .resize 0, .next, .resize 2, .previous] :
        List Action) := by
    simp
  have checked := run?_eq_some_run ⟨5, 18446744073709551614⟩ _ (by decide) unselected
  exact ⟨by decide, unselected, checked.1, rfl, rfl, checked.2 10 .previous rfl rfl⟩

end Menu

end RomCatalog
