import Mathlib.Data.List.Nodup

/-!
Looking up a key among pairs. The first pair with the key decides, so the order of the pairs matters
exactly if two pairs with one key hold different values. Where no key is repeated a pair is found
exactly if it is there.
-/

namespace RomCatalog.Lookup

variable {α β : Type}

/-- Pairs with one key hold one value. -/
def Agree (pairs : List (α × β)) : Prop :=
  ∀ key value other, (key, value) ∈ pairs → (key, other) ∈ pairs → value = other

theorem agree_of_distinct {pairs : List (α × β)} (distinct : (pairs.map Prod.fst).Nodup) :
    Agree pairs := by
  intro key value other held otherHeld
  have same : (key, value) = (key, other) :=
    List.inj_on_of_nodup_map distinct held otherHeld rfl
  exact congrArg Prod.snd same

variable [BEq α] [LawfulBEq α]

theorem mem_of_lookup {pairs : List (α × β)} {key : α} {value : β}
    (found : pairs.lookup key = some value) : (key, value) ∈ pairs := by
  obtain ⟨before, behind, rfl, _⟩ := List.lookup_eq_some_iff.mp found
  simp

theorem lookup_eq_some_iff_of_agree {pairs : List (α × β)} (agree : Agree pairs)
    (key : α) (value : β) : pairs.lookup key = some value ↔ (key, value) ∈ pairs := by
  constructor
  · exact mem_of_lookup
  · intro held
    cases answer : pairs.lookup key with
    | none =>
        have absent := List.lookup_eq_none_iff.mp answer (key, value) held
        simp at absent
    | some other => rw [agree key other value (mem_of_lookup answer) held]

theorem lookup_eq_some_iff_mem {pairs : List (α × β)} (distinct : (pairs.map Prod.fst).Nodup)
    (key : α) (value : β) : pairs.lookup key = some value ↔ (key, value) ∈ pairs :=
  lookup_eq_some_iff_of_agree (agree_of_distinct distinct) key value

theorem agree_of_forall_perm {pairs : List (α × β)}
    (stable : ∀ others, pairs.Perm others → ∀ key, others.lookup key = pairs.lookup key) :
    Agree pairs := by
  have answered : ∀ key value, (key, value) ∈ pairs → pairs.lookup key = some value := by
    intro key value held
    obtain ⟨before, behind, rfl⟩ := List.append_of_mem held
    rw [← stable _ List.perm_middle key, List.lookup_cons_self]
  intro key value other held otherHeld
  have same := (answered key value held).symm.trans (answered key other otherHeld)
  exact Option.some.inj same

theorem forall_perm_iff_agree (pairs : List (α × β)) :
    (∀ others, pairs.Perm others → ∀ key, others.lookup key = pairs.lookup key) ↔ Agree pairs := by
  constructor
  · exact agree_of_forall_perm
  · intro agree others perm key
    have otherAgree : Agree others := by
      intro key value other held otherHeld
      exact agree key value other (perm.mem_iff.mpr held) (perm.mem_iff.mpr otherHeld)
    apply Option.ext
    intro value
    rw [lookup_eq_some_iff_of_agree otherAgree, lookup_eq_some_iff_of_agree agree, perm.mem_iff]

theorem lookup_eq_of_perm {pairs others : List (α × β)} (perm : pairs.Perm others)
    (distinct : (pairs.map Prod.fst).Nodup) (key : α) : pairs.lookup key = others.lookup key :=
  ((forall_perm_iff_agree pairs).mpr (agree_of_distinct distinct) others perm key).symm

end RomCatalog.Lookup
