import Mathlib.Algebra.BigOperators.Group.List.Basic
import Mathlib.Data.Int.ModEq
import Mathlib.Data.List.Nodup
import Mathlib.Data.List.Perm.Subperm
import RomCatalog.Menu

/-!
Stepping through a table goes round. A step from an index inside the table moves it by one place
modulo the length, so where a run of steps comes to is told by how many of them go each way, and as
many steps one way as the table has rows pass every row once.
-/

namespace RomCatalog

namespace Word

variable {word : UInt64}

theorem toNat_pos (positive : word ≠ 0) : 0 < word.toNat :=
  Nat.pos_of_ne_zero fun zero => positive (UInt64.toNat_inj.mp zero)

theorem one_le (positive : word ≠ 0) : 1 ≤ word :=
  UInt64.le_iff_toNat_le.mpr (toNat_pos positive)

theorem toNat_sub_one (positive : word ≠ 0) : (word - 1).toNat = word.toNat - 1 :=
  UInt64.toNat_sub_of_le word 1 (one_le positive)

end Word

namespace Menu

def Action.isTurn : Action → Bool
  | .next | .previous => true
  | .resize _ | .select _ => false

/-- How far an action moves the index, up to multiples of the length. -/
def Action.shift : Action → Int
  | .next => 1
  | .previous => -1
  | .resize _ | .select _ => 0

def State.reached (state : State) (actions : List Action) : State :=
  (state.run actions).getLastD state

def State.passed (state : State) (actions : List Action) : List Nat :=
  (state.run actions).map fun reached => reached.current.toNat

variable {length current : UInt64} {state : State} {action turn : Action} {actions : List Action}

theorem reached_nil (state : State) : state.reached [] = state := rfl

theorem reached_cons (state : State) (action : Action) (rest : List Action) :
    state.reached (action :: rest) = (state.act action).reached rest := by
  simp only [State.reached, State.run, List.getLastD_cons]

theorem length_run (state : State) (actions : List Action) :
    (state.run actions).length = actions.length := by
  induction actions generalizing state with
  | nil => rfl
  | cons action rest ih => simp only [State.run, List.length_cons, ih]

theorem getElem_run {index : Nat} (state : State) (actions : List Action)
    (bound : index < (state.run actions).length) :
    (state.run actions)[index] = state.reached (actions.take (index + 1)) := by
  induction actions generalizing state index with
  | nil => simp [State.run] at bound
  | cons action rest ih =>
      cases index with
      | zero => simp [State.run, reached_cons, reached_nil]
      | succ index =>
          simp only [State.run, List.getElem_cons_succ, ih, List.take_succ_cons, reached_cons]

theorem length_passed (state : State) (actions : List Action) :
    (state.passed actions).length = actions.length := by
  rw [State.passed, List.length_map, length_run]

theorem getElem_passed {index count : Nat} (state : State) (action : Action)
    (bound : index < (state.passed (List.replicate count action)).length) :
    (state.passed (List.replicate count action))[index] =
      (state.reached (List.replicate (index + 1) action)).current.toNat := by
  have within : index + 1 ≤ count := by
    rwa [length_passed, List.length_replicate] at bound
  simp only [State.passed, List.getElem_map, getElem_run, List.take_replicate,
    Nat.min_eq_left within]

/-! One step. -/

theorem eq_of_isTurn (isTurn : action.isTurn = true) : action = .next ∨ action = .previous := by
  cases action with
  | next => exact .inl rfl
  | previous => exact .inr rfl
  | resize _ => simp [Action.isTurn] at isTurn
  | select _ => simp [Action.isTurn] at isTurn

theorem ne_zero_of_lt (inside : current < length) : length ≠ 0 := by
  rintro rfl
  simp [UInt64.lt_iff_toNat_lt] at inside

theorem toNat_next (inside : current < length) :
    ((next length current).toNat : Int) = ((current.toNat : Int) + 1) % length.toNat := by
  have bound : current.toNat < length.toNat := UInt64.lt_iff_toNat_lt.mp inside
  have fits : current.toNat + 1 < 2 ^ 64 := Nat.lt_of_le_of_lt bound length.toNat_lt
  rw [next, if_neg (ne_zero_of_lt inside), UInt64.toNat_mod, UInt64.toNat_add, UInt64.toNat_one,
    Nat.mod_eq_of_lt fits, Int.natCast_emod, Int.natCast_add, Int.natCast_one]

theorem toNat_previous (inside : current < length) :
    ((previous length current).toNat : Int) = ((current.toNat : Int) - 1) % length.toNat := by
  have bound : current.toNat < length.toNat := UInt64.lt_iff_toNat_lt.mp inside
  have final : (length - 1).toNat = length.toNat - 1 := Word.toNat_sub_one (ne_zero_of_lt inside)
  by_cases first : current = 0
  · -- one less than the first index is the last index, with the length taken away
    have wrapped :
        (((current.toNat : Int) - 1) + length.toNat) % length.toNat = length.toNat - 1 := by
      rw [first, UInt64.toNat_zero, Int.emod_eq_of_lt (by omega) (by omega)]
      omega
    rw [Int.add_emod_right] at wrapped
    rw [previous, if_neg (ne_zero_of_lt inside), if_pos first, final, wrapped]
    omega
  · have later : 0 < current.toNat := Word.toNat_pos first
    have before : (current - 1).toNat = current.toNat - 1 := Word.toNat_sub_one first
    have nearer : min (current - 1) (length - 1) = current - 1 := by
      refine if_pos (UInt64.le_iff_toNat_le.mpr ?_)
      omega
    rw [previous, if_neg (ne_zero_of_lt inside), if_neg first, nearer, before,
      Int.emod_eq_of_lt (by omega) (by omega)]
    omega

theorem length_act (isTurn : action.isTurn = true) : (state.act action).length = state.length := by
  rcases eq_of_isTurn isTurn with rfl | rfl
  · rfl
  · rfl

theorem toNat_current_act (inside : state.current < state.length) (isTurn : action.isTurn = true) :
    ((state.act action).current.toNat : Int) =
      (state.current.toNat + action.shift) % state.length.toNat := by
  rcases eq_of_isTurn isTurn with rfl | rfl
  · exact toNat_next inside
  · exact toNat_previous inside

theorem current_act_lt (inside : state.current < state.length) (isTurn : action.isTurn = true) :
    (state.act action).current < (state.act action).length := by
  have positive : 0 < state.length.toNat := Word.toNat_pos (ne_zero_of_lt inside)
  have bound :=
    Int.emod_lt_of_pos (state.current.toNat + action.shift) (Int.natCast_pos.mpr positive)
  rw [← toNat_current_act inside isTurn] at bound
  rw [length_act isTurn, UInt64.lt_iff_toNat_lt]
  omega

/-! Runs of steps. -/

theorem length_reached (turns : ∀ action ∈ actions, action.isTurn = true) :
    (state.reached actions).length = state.length := by
  induction actions generalizing state with
  | nil => rfl
  | cons action rest ih =>
      rw [List.forall_mem_cons] at turns
      rw [reached_cons, ih turns.2, length_act turns.1]

theorem toNat_current_reached (inside : state.current < state.length)
    (turns : ∀ action ∈ actions, action.isTurn = true) :
    ((state.reached actions).current.toNat : Int) =
      (state.current.toNat + (actions.map Action.shift).sum) % state.length.toNat := by
  induction actions generalizing state with
  | nil =>
      have bound := UInt64.lt_iff_toNat_lt.mp inside
      rw [reached_nil, List.map_nil, List.sum_nil, Int.add_zero,
        Int.emod_eq_of_lt (by omega) (by omega)]
  | cons action rest ih =>
      rw [List.forall_mem_cons] at turns
      rw [reached_cons, ih (current_act_lt inside turns.1) turns.2, length_act turns.1,
        toNat_current_act inside turns.1, Int.emod_add_emod, List.map_cons, List.sum_cons,
        Int.add_assoc]

theorem sum_shift (actions : List Action) :
    (actions.map Action.shift).sum = (actions.count .next : Int) - actions.count .previous := by
  induction actions with
  | nil => rfl
  | cons action rest ih =>
      rw [List.map_cons, List.sum_cons, ih, List.count_cons, List.count_cons]
      cases action with
      | next =>
          simp [Action.shift]
          omega
      | previous =>
          simp [Action.shift]
          omega
      | resize _ => simp [Action.shift]
      | select _ => simp [Action.shift]

/-! As many steps one way as the table has rows. -/

theorem isTurn_of_mem_replicate (isTurn : turn.isTurn = true) (count : Nat) :
    ∀ action ∈ List.replicate count turn, action.isTurn = true := by
  intro action member
  rwa [List.eq_of_mem_replicate member]

theorem toNat_current_repeated (inside : state.current < state.length)
    (isTurn : turn.isTurn = true) (count : Nat) :
    ((state.reached (List.replicate count turn)).current.toNat : Int) =
      (state.current.toNat + count * turn.shift) % state.length.toNat := by
  rw [toNat_current_reached inside (isTurn_of_mem_replicate isTurn count), List.map_replicate,
    List.sum_replicate, nsmul_eq_mul]

theorem current_repeated_ne (inside : state.current < state.length) (isTurn : turn.isTurn = true)
    {first second : Nat} (later : first < second) (near : second < first + state.length.toNat) :
    (state.reached (List.replicate first turn)).current.toNat ≠
      (state.reached (List.replicate second turn)).current.toNat := by
  intro same
  have congruent : (state.current.toNat + first * turn.shift : Int) ≡
      state.current.toNat + second * turn.shift [ZMOD state.length.toNat] := by
    rw [Int.ModEq, ← toNat_current_repeated inside isTurn, ← toNat_current_repeated inside isTurn,
      same]
  have divides : (state.length.toNat : Int) ∣ second - first := by
    rcases eq_of_isTurn isTurn with rfl | rfl
    · have forward := congruent.dvd
      simp only [Action.shift] at forward
      rwa [show (state.current.toNat + second * 1 - (state.current.toNat + first * 1) : Int) =
        second - first by omega] at forward
    · have backward := congruent.symm.dvd
      simp only [Action.shift] at backward
      rwa [show (state.current.toNat + first * -1 - (state.current.toNat + second * -1) : Int) =
        second - first by omega] at backward
  have atLeast := Int.le_of_dvd (by omega) divides
  omega

theorem nodup_passed (inside : state.current < state.length) (isTurn : turn.isTurn = true) :
    (state.passed (List.replicate state.length.toNat turn)).Nodup := by
  rw [List.Nodup, List.pairwise_iff_getElem]
  intro first second firstBound secondBound later
  rw [getElem_passed, getElem_passed]
  rw [length_passed, List.length_replicate] at secondBound
  exact current_repeated_ne inside isTurn (by omega) (by omega)

theorem lt_of_mem_passed (inside : state.current < state.length) (isTurn : turn.isTurn = true)
    {count row : Nat} (member : row ∈ state.passed (List.replicate count turn)) :
    row < state.length.toNat := by
  obtain ⟨index, bound, rfl⟩ := List.getElem_of_mem member
  have positive : 0 < state.length.toNat := Word.toNat_pos (ne_zero_of_lt inside)
  have below := Int.emod_lt_of_pos (state.current.toNat + (index + 1 : Nat) * turn.shift)
    (Int.natCast_pos.mpr positive)
  rw [← toNat_current_repeated inside isTurn] at below
  rw [getElem_passed]
  omega

theorem perm_range_passed (inside : state.current < state.length) (isTurn : turn.isTurn = true) :
    (state.passed (List.replicate state.length.toNat turn)).Perm
      (List.range state.length.toNat) := by
  have listed : state.passed (List.replicate state.length.toNat turn) ⊆
      List.range state.length.toNat := by
    intro row member
    exact List.mem_range.mpr (lt_of_mem_passed inside isTurn member)
  refine (List.subperm_of_subset (nodup_passed inside isTurn) listed).perm_of_length_le ?_
  rw [length_passed, List.length_replicate, List.length_range]

theorem reached_eq_self (inside : state.current < state.length)
    (turns : ∀ action ∈ actions, action.isTurn = true)
    (rounds : (state.length.toNat : Int) ∣ (actions.map Action.shift).sum) :
    state.reached actions = state := by
  have bound := UInt64.lt_iff_toNat_lt.mp inside
  have sameLength : (state.reached actions).length = state.length := length_reached turns
  have sameCurrent := toNat_current_reached inside turns
  obtain ⟨count, whole⟩ := rounds
  rw [whole, Int.add_mul_emod_self_left, Int.emod_eq_of_lt (by omega) (by omega), Int.natCast_inj,
    UInt64.toNat_inj] at sameCurrent
  calc state.reached actions
      = ⟨(state.reached actions).length, (state.reached actions).current⟩ := rfl
    _ = state := by rw [sameLength, sameCurrent]

/-- What a run of steps both ways does to an index inside the table: it adds up, modulo the length.
So a step back takes back a step forward and the other way round, and a round passes every row once
and ends where it began. -/
theorem turns_rotate (state : State) (inside : state.current < state.length) :
    (∀ actions : List Action, (∀ action ∈ actions, action.isTurn = true) →
      ((state.reached actions).current.toNat : Int) =
        (state.current.toNat + actions.count .next - actions.count .previous) %
          state.length.toNat) ∧
    previous state.length (next state.length state.current) = state.current ∧
    next state.length (previous state.length state.current) = state.current ∧
    ∀ turn : Action, turn.isTurn = true →
      (state.passed (List.replicate state.length.toNat turn)).Perm
        (List.range state.length.toNat) ∧
      state.reached (List.replicate state.length.toNat turn) = state := by
  refine ⟨?_, ?_, ?_, ?_⟩
  · intro actions turns
    rw [toNat_current_reached inside turns, sum_shift, Int.add_sub_assoc]
  · have back : state.reached [.next, .previous] = state :=
      reached_eq_self inside (by decide) (Int.dvd_zero _)
    exact congrArg State.current back
  · have forth : state.reached [.previous, .next] = state :=
      reached_eq_self inside (by decide) (Int.dvd_zero _)
    exact congrArg State.current forth
  · intro turn isTurn
    refine ⟨perm_range_passed inside isTurn,
      reached_eq_self inside (isTurn_of_mem_replicate isTurn _) ?_⟩
    rw [List.map_replicate, List.sum_replicate, nsmul_eq_mul]
    exact Int.dvd_mul_right _ _

theorem turns_rotate_ends :
    let widest : State := ⟨18446744073709551615, 18446744073709551614⟩
    let short : State := ⟨3, 1⟩
    (widest.current < widest.length ∧
      (∀ action ∈ [Action.next, .previous, .previous], action.isTurn = true) ∧
      ((widest.reached [.next, .previous, .previous]).current.toNat : Int) =
        (18446744073709551614 + 1 - 2) % 18446744073709551615) ∧
    short.current < short.length ∧ Action.isTurn .previous = true ∧
      (short.passed [.previous, .previous, .previous]).Perm [0, 1, 2] ∧
      short.reached [.previous, .previous, .previous] = short := by
  refine ⟨⟨by decide, by decide, ?_⟩, by decide, rfl, ?_⟩
  · exact (turns_rotate ⟨18446744073709551615, 18446744073709551614⟩ (by decide)).1
      [.next, .previous, .previous] (by decide)
  · exact (turns_rotate ⟨3, 1⟩ (by decide)).2.2.2 .previous rfl

end Menu

end RomCatalog
