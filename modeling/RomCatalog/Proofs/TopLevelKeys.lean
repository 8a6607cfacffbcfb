import Mathlib.Data.List.Induction
import Mathlib.Data.List.Nodup
import RomCatalog.Toml.Document

/-!
The keys at the top of a document. Each key that the statements of a text are about stands there
once, and the keys stand in the order in which the text first mentions them, unless a table that
was only implied gets its own header later and moves behind the others.
-/

namespace RomCatalog.Toml

def withKey (keys : List String) (key : String) : List String :=
  if key ∈ keys then keys else keys ++ [key]

theorem eraseDups_concat (names : List String) (name : String) :
    (names ++ [name]).eraseDups = withKey names.eraseDups name := by
  rw [List.eraseDups_append, withKey]
  by_cases seen : name ∈ names
  · rw [if_pos (List.mem_eraseDups.mpr seen)]
    simp [List.removeAll, seen]
  · rw [if_neg (fun member => seen (List.mem_eraseDups.mp member))]
    simp [List.removeAll, seen, List.eraseDups_cons]

theorem nodup_eraseDups (names : List String) : names.eraseDups.Nodup := by
  induction names using List.reverseRecOn with
  | nil => exact List.nodup_nil
  | append_singleton names name ih =>
      rw [eraseDups_concat, withKey]
      split
      · exact ih
      · rename_i absent
        exact List.nodup_append.mpr ⟨ih, by simp, by
          intro seen member other new same
          rw [List.mem_singleton] at new
          exact absent (new ▸ same ▸ member)⟩

namespace Entries

def keys (entries : Entries) : List String :=
  entries.map fun entry => entry.1.text

theorem keys_update {key : Key} {change : Option Node → Option Node} {entries updated : Entries}
    (done : update key change entries = some updated) :
    updated.keys = withKey entries.keys key.text := by
  induction entries generalizing updated with
  | nil =>
      obtain ⟨node, _, rfl⟩ := Option.map_eq_some_iff.mp done
      rfl
  | cons entry rest ih =>
      obtain ⟨other, node⟩ := entry
      rw [update] at done
      split at done
      · rename_i same
        obtain ⟨changed, _, rfl⟩ := Option.map_eq_some_iff.mp done
        simp [keys, withKey, same]
      · rename_i differs
        obtain ⟨more, updatedRest, rfl⟩ := Option.map_eq_some_iff.mp done
        have tail := ih updatedRest
        simp only [keys, List.map_cons, withKey, List.mem_cons] at tail ⊢
        rw [tail]
        have notFirst : key.text ≠ other.text := Ne.symm differs
        by_cases known : key.text ∈ rest.map fun entry => entry.1.text
        · simp [known]
        · simp [known, notFirst]

theorem find?_eq_none_iff {name : String} {entries : Entries} :
    entries.find? name = none ↔ name ∉ entries.keys := by
  induction entries with
  | nil => simp [find?, keys]
  | cons entry rest ih =>
      obtain ⟨key, node⟩ := entry
      rw [find?]
      split
      · rename_i same
        simp [keys, same]
      · rename_i differs
        rw [ih]
        simp [keys, Ne.symm differs]

theorem keys_openTable {key : Key} {span : Span} {entries opened : Entries}
    (done : openTable key span entries = some opened) :
    opened.keys = withKey entries.keys key.text ∨
      key.text ∈ entries.keys ∧
        opened.keys = entries.keys.filter (· ≠ key.text) ++ [key.text] := by
  unfold openTable at done
  split at done
  · rename_i absent
    rw [find?_eq_none_iff] at absent
    obtain rfl := Option.some.inj done
    rw [withKey, if_neg absent]
    exact .inl (by simp [keys])
  · rename_i inner present
    obtain rfl := Option.some.inj done
    have known : key.text ∈ entries.keys := by
      by_contra absent
      rw [find?_eq_none_iff.mpr absent] at present
      simp at present
    refine .inr ⟨known, ?_⟩
    simp [keys, List.filter_map, Function.comp_def]
  · simp at done

theorem keys_within {change : Entries → Option Entries} {key : Key} {path : List Key}
    {entries changed : Entries} (done : within change (key :: path) entries = some changed) :
    changed.keys = withKey entries.keys key.text :=
  keys_update done

theorem keys_assign {node : Node} {key : Key} {path : List Key} {entries assigned : Entries}
    (done : assign node (key :: path) entries = some assigned) :
    assigned.keys = withKey entries.keys key.text := by
  cases path with
  | nil => exact keys_update done
  | cons next rest => exact keys_update done

end Entries

namespace Statement

def header (current : List Key) : Statement → List Key
  | .entry _ _ _ => current
  | .table path _ => path
  | .element path _ => path

/-- The top-level key that the statement is about. An entry belongs to the current header. -/
def topKey? (current : List Key) : Statement → Option Key
  | .entry path _ _ => (current ++ path).head?
  | .table path _ => path.head?
  | .element path _ => path.head?

end Statement

/-- The top-level keys that statements are about, one after the other. -/
def mentioned (current : List Key) : List Statement → List String
  | [] => []
  | statement :: rest =>
      (statement.topKey? current).toList.map Key.text ++ mentioned (statement.header current) rest

/-- The key is that of a header which comes after other statements about its table, such as `[a]`
after `[a.b]`. -/
def ReopenedBy (statements : List Statement) (key : Key) : Prop :=
  ∃ before span after, statements = before ++ .table [key] span :: after ∧
    key.text ∈ mentioned [] before

def Reopens (statements : List Statement) : Prop :=
  ∃ key, ReopenedBy statements key

namespace Draft

variable {change : Key → Entries → Option Entries} {entries changed : Entries}

theorem keys_atHeader_nested {key next : Key} {path : List Key}
    (done : atHeader (key :: next :: path) change entries = some changed) :
    changed.keys = withKey entries.keys key.text := by
  simp only [atHeader, List.getLast?_cons_cons, List.dropLast_cons_cons] at done
  split at done
  · simp at done
  · exact Entries.keys_within done

theorem keys_atHeader {key : Key} {path : List Key}
    (changesKey : ∀ changed, change key entries = some changed →
      changed.keys = withKey entries.keys key.text)
    (done : atHeader (key :: path) change entries = some changed) :
    changed.keys = withKey entries.keys key.text := by
  cases path with
  | nil => exact changesKey changed done
  | cons next rest => exact keys_atHeader_nested done

theorem keys_add {draft next : Draft} {statement : Statement}
    (added : draft.add statement = some next) :
    ∃ key, statement.topKey? draft.current = some key ∧
      next.current = statement.header draft.current ∧
      (next.entries.keys = withKey draft.entries.keys key.text ∨
        (∃ span, statement = .table [key] span) ∧ key.text ∈ draft.entries.keys ∧
          next.entries.keys = draft.entries.keys.filter (· ≠ key.text) ++ [key.text]) := by
  cases statement with
  | table path span =>
      obtain ⟨changed, done, rfl⟩ := Option.map_eq_some_iff.mp added
      match path, done with
      | [key], done =>
          refine ⟨key, rfl, rfl, ?_⟩
          rcases Entries.keys_openTable done with fresh | ⟨known, moved⟩
          · exact .inl fresh
          · exact .inr ⟨⟨span, rfl⟩, known, moved⟩
      | key :: next :: rest, done =>
          exact ⟨key, rfl, rfl, .inl (keys_atHeader_nested done)⟩
  | element path span =>
      obtain ⟨changed, done, rfl⟩ := Option.map_eq_some_iff.mp added
      match path, done with
      | key :: rest, done =>
          exact ⟨key, rfl, rfl, .inl (keys_atHeader (fun _ => Entries.keys_update) done)⟩
  | entry path value span =>
      obtain ⟨changed, done, rfl⟩ := Option.map_eq_some_iff.mp added
      split at done
      · rename_i top
        match path, done with
        | key :: rest, done =>
            exact ⟨key, by simp [Statement.topKey?, top], rfl, .inl (Entries.keys_assign done)⟩
      · rename_i under
        obtain ⟨key, rest, current⟩ := List.exists_cons_of_ne_nil under
        rw [current] at done
        exact ⟨key, by simp [Statement.topKey?, current], rfl,
          .inl (keys_atHeader (fun _ => Entries.keys_update) done)⟩

theorem perm_withKey {keys others : List String} (same : keys.Perm others) (key : String) :
    (withKey keys key).Perm (withKey others key) := by
  unfold withKey
  by_cases known : key ∈ keys
  · rw [if_pos known, if_pos (same.mem_iff.mp known)]
    exact same
  · rw [if_neg known, if_neg (fun member => known (same.mem_iff.mpr member))]
    exact same.append_right [key]

theorem perm_moved {keys : List String} (distinct : keys.Nodup) {key : String}
    (known : key ∈ keys) : (keys.filter (· ≠ key) ++ [key]).Perm (withKey keys key) := by
  rw [withKey, if_pos known]
  refine (List.perm_ext_iff_of_nodup ?_ distinct).mpr ?_
  · exact List.nodup_append.mpr ⟨distinct.filter _, by simp, by
      rintro other member new last rfl
      simp_all⟩
  · intro name
    by_cases same : name = key
    · simp [same, known]
    · simp [same]

theorem keys_foldlM {statements : List Statement} {draft final : Draft} {seen : List String}
    (run : statements.foldlM add draft = some final)
    (listed : draft.entries.keys.Perm seen.eraseDups) :
    final.entries.keys.Perm (seen ++ mentioned draft.current statements).eraseDups ∧
      (draft.entries.keys = seen.eraseDups →
        (∀ before key span after, statements = before ++ .table [key] span :: after →
          key.text ∉ seen ++ mentioned draft.current before) →
        final.entries.keys = (seen ++ mentioned draft.current statements).eraseDups) := by
  induction statements generalizing draft seen with
  | nil =>
      rw [List.foldlM_nil] at run
      obtain rfl := Option.some.inj run
      rw [mentioned, List.append_nil]
      exact ⟨listed, fun ordered _ => ordered⟩
  | cons statement rest ih =>
      rw [List.foldlM_cons, Option.bind_eq_bind, Option.bind_eq_some_iff] at run
      obtain ⟨next, added, run⟩ := run
      obtain ⟨key, about, current, keys⟩ := keys_add added
      have split : ∀ later, seen ++ mentioned draft.current (statement :: later) =
          (seen ++ [key.text]) ++ mentioned next.current later := by
        intro later
        rw [mentioned, about, current]
        simp
      have distinct : draft.entries.keys.Nodup :=
        listed.nodup_iff.mpr (nodup_eraseDups seen)
      have listedNext : next.entries.keys.Perm (seen ++ [key.text]).eraseDups := by
        rw [eraseDups_concat]
        rcases keys with placed | ⟨_, known, moved⟩
        · rw [placed]
          exact perm_withKey listed key.text
        · rw [moved]
          exact (perm_moved distinct known).trans (perm_withKey listed key.text)
      obtain ⟨listedAll, orderedAll⟩ := ih run listedNext
      rw [split rest]
      refine ⟨listedAll, ?_⟩
      intro ordered unmoved
      refine orderedAll ?_ ?_
      · rcases keys with placed | ⟨⟨span, single⟩, known, _⟩
        · rw [placed, ordered, eraseDups_concat]
        · -- the key of a single header was not there before
          have absent := unmoved [] key span rest (by simp [single])
          rw [mentioned, List.append_nil] at absent
          rw [listed.mem_iff, List.mem_eraseDups] at known
          exact absurd known absent
      · intro before other span after here
        rw [← split before]
        exact unmoved (statement :: before) other span after (by rw [here, List.cons_append])

end Draft

theorem document?_eq_some_iff {text : List Char} {entries : Entries} :
    document? text = some entries ↔ ∃ statements draft, statements? text = some statements ∧
      statements.foldlM Draft.add ⟨[], []⟩ = some draft ∧ draft.entries = entries := by
  simp [document?, Option.bind_eq_some_iff]

/-- A document has the keys that its text mentions, each once, and in the order in which they are
first mentioned unless a header reopens a table. -/
theorem keys_document {text : List Char} {entries : Entries} {statements : List Statement}
    (valid : document? text = some entries) (read : statements? text = some statements) :
    entries.keys.Perm (mentioned [] statements).eraseDups ∧
      (¬Reopens statements → entries.keys = (mentioned [] statements).eraseDups) := by
  obtain ⟨others, draft, readAgain, run, rfl⟩ := document?_eq_some_iff.mp valid
  rw [read, Option.some.injEq] at readAgain
  subst readAgain
  have nothing : (Entries.keys []).Perm ([] : List String).eraseDups := List.Perm.refl []
  have both := Draft.keys_foldlM run nothing
  rw [List.nil_append] at both
  refine ⟨both.1, ?_⟩
  intro unmoved
  refine both.2 rfl ?_
  intro before key span after here mentions
  exact unmoved ⟨key, before, span, after, here, mentions⟩

theorem nodup_keys_document {text : List Char} {entries : Entries}
    (valid : document? text = some entries) : entries.keys.Nodup := by
  obtain ⟨statements, _, read, _⟩ := document?_eq_some_iff.mp valid
  exact (keys_document valid read).1.nodup_iff.mpr (nodup_eraseDups _)

end RomCatalog.Toml
