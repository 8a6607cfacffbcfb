import RomCatalog.Proofs.Positions

/-!
Where the entries at the top of a document come from. Each has the key under which it was mentioned
first, unless a header reopened its table; the values among them are just those of the entries that
belong to no table.
-/

namespace RomCatalog.Toml

/-- The node took in more of the text, but is not a value and begins where it began. -/
def Node.Grows (old new : Node) : Prop :=
  (∀ value span, old ≠ .value value span) ∧ (∀ value span, new ≠ .value value span) ∧
    new.span?.map Span.start = old.span?.map Span.start

theorem Node.grows_table (origin : Origin) (old new : Entries) :
    (Node.table origin old).Grows (.table origin new) :=
  ⟨by simp, by simp, by cases origin <;> rfl⟩

theorem Node.grows_tables (start stop later : Nat) (oldEarlier newEarlier : List Entries)
    (oldLatest newLatest : Entries) :
    (Node.tables ⟨start, stop⟩ oldEarlier oldLatest).Grows
      (.tables ⟨start, later⟩ newEarlier newLatest) :=
  ⟨by simp, by simp, rfl⟩

namespace Entries

structure Updates (key : Key) (Makes : Node → Prop) (entries updated : Entries) : Prop where
  cases : ∀ entry ∈ updated, entry ∈ entries ∨
    (∃ old, (entry.1, old) ∈ entries ∧ old.Grows entry.2) ∨
    (entry.1 = key ∧ key.text ∉ entries.keys ∧ Makes entry.2)
  keeps : ∀ other value span, (other, .value value span) ∈ entries →
    (other, .value value span) ∈ updated

theorem updates_of_update {key : Key} {Makes : Node → Prop} {change : Option Node → Option Node}
    {entries updated : Entries} (done : update key change entries = some updated)
    (grows : ∀ old new, change (some old) = some new → old.Grows new)
    (makes : ∀ new, change none = some new → Makes new) : Updates key Makes entries updated := by
  induction entries generalizing updated with
  | nil =>
      obtain ⟨node, made, rfl⟩ := Option.map_eq_some_iff.mp done
      refine ⟨?_, by simp⟩
      intro entry member
      rw [List.mem_singleton] at member
      rw [member]
      exact .inr (.inr ⟨rfl, by simp [keys], makes node made⟩)
  | cons first rest ih =>
      obtain ⟨other, node⟩ := first
      rw [update] at done
      split at done
      · obtain ⟨changed, change, rfl⟩ := Option.map_eq_some_iff.mp done
        have grown := grows node changed change
        constructor
        · intro entry member
          rcases List.mem_cons.mp member with rfl | member
          · exact .inr (.inl ⟨node, List.mem_cons_self, grown⟩)
          · exact .inl (List.mem_cons_of_mem _ member)
        · intro kept value span member
          rcases List.mem_cons.mp member with same | member
          · exact absurd (Prod.mk.inj same).2.symm (grown.1 value span)
          · exact List.mem_cons_of_mem _ member
      · rename_i differs
        obtain ⟨more, updatedRest, rfl⟩ := Option.map_eq_some_iff.mp done
        obtain ⟨cases, keeps⟩ := ih updatedRest
        constructor
        · intro entry member
          rcases List.mem_cons.mp member with rfl | member
          · exact .inl List.mem_cons_self
          · rcases cases entry member with same | ⟨old, member, grown⟩ | ⟨same, absent, made⟩
            · exact .inl (List.mem_cons_of_mem _ same)
            · exact .inr (.inl ⟨old, List.mem_cons_of_mem _ member, grown⟩)
            · refine .inr (.inr ⟨same, ?_, made⟩)
              simp only [keys, List.map_cons, List.mem_cons, not_or] at absent ⊢
              exact ⟨Ne.symm differs, absent⟩
        · intro kept value span member
          rcases List.mem_cons.mp member with same | member
          · rw [same]
            exact List.mem_cons_self
          · exact List.mem_cons_of_mem _ (keeps kept value span member)

theorem mem_of_update {key : Key} {change : Option Node → Option Node} {entries updated : Entries}
    {node : Node} (done : update key change entries = some updated)
    (fresh : ∀ old, change (some old) = none) (made : change none = some node) :
    (key, node) ∈ updated := by
  induction entries generalizing updated with
  | nil =>
      rw [update, made] at done
      obtain rfl := Option.some.inj done
      exact List.mem_singleton_self _
  | cons first rest ih =>
      obtain ⟨other, old⟩ := first
      rw [update] at done
      split at done
      · simp [fresh] at done
      · obtain ⟨more, updatedRest, rfl⟩ := Option.map_eq_some_iff.mp done
        exact List.mem_cons_of_mem _ (ih updatedRest)

section Changes

variable {key : Key} {path : List Key} {node : Node} {span : Span} {entries changed : Entries}

theorem updates_within {change : Entries → Option Entries}
    (done : within change (key :: path) entries = some changed) :
    Updates key (fun node => ∃ inner, node = .table .implied inner) entries changed := by
  refine updates_of_update done ?_ ?_
  · intro old new grown
    cases old with
    | value value span => simp at grown
    | table origin inner =>
        obtain ⟨more, _, rfl⟩ := Option.map_eq_some_iff.mp grown
        exact Node.grows_table ..
    | tables span earlier latest =>
        obtain ⟨more, _, rfl⟩ := Option.map_eq_some_iff.mp grown
        exact Node.grows_tables ..
  · intro new made
    obtain ⟨inner, _, rfl⟩ := Option.map_eq_some_iff.mp made
    exact ⟨inner, rfl⟩

theorem updates_openElement (done : openElement key span entries = some changed) :
    Updates key (· = .tables span [] []) entries changed := by
  refine updates_of_update done ?_ ?_
  · intro old new grown
    cases old with
    | value value span => simp at grown
    | table origin inner => simp at grown
    | tables whole earlier latest =>
        obtain rfl := Option.some.inj grown
        exact Node.grows_tables ..
  · intro new made
    exact (Option.some.inj made).symm

theorem updates_assign (done : assign node (key :: path) entries = some changed) :
    Updates key (fun new => path = [] ∧ new = node ∨ ∃ inner, new = .table .dotted inner)
      entries changed := by
  cases path with
  | nil =>
      refine updates_of_update done (by simp) ?_
      intro new made
      exact .inl ⟨rfl, (Option.some.inj made).symm⟩
  | cons next rest =>
      refine updates_of_update done ?_ ?_
      · intro old new grown
        split at grown
        · simp at *
        · rename_i inner same
          obtain ⟨more, _, rfl⟩ := Option.map_eq_some_iff.mp grown
          rw [Option.some.inj same]
          exact Node.grows_table ..
        · rename_i inner same
          split at grown
          · simp at grown
          · obtain ⟨more, _, rfl⟩ := Option.map_eq_some_iff.mp grown
            rw [Option.some.inj same]
            exact Node.grows_table ..
        · rename_i span earlier latest same
          split at grown
          · simp at grown
          · obtain ⟨more, _, rfl⟩ := Option.map_eq_some_iff.mp grown
            rw [Option.some.inj same]
            exact Node.grows_tables ..
        · simp at grown
      · intro new made
        obtain ⟨inner, _, rfl⟩ := Option.map_eq_some_iff.mp made
        exact .inr ⟨inner, rfl⟩

theorem updates_assignUnder {stop : Nat}
    (done : assignUnder key node stop path entries = some changed) :
    Updates key (fun _ => False) entries changed := by
  refine updates_of_update done ?_ (by simp)
  intro old new grown
  split at grown
  · rename_i span inner same
    obtain ⟨more, _, rfl⟩ := Option.map_eq_some_iff.mp grown
    rw [Option.some.inj same]
    exact ⟨by simp, by simp, rfl⟩
  · rename_i span earlier latest same
    obtain ⟨more, _, rfl⟩ := Option.map_eq_some_iff.mp grown
    rw [Option.some.inj same]
    exact Node.grows_tables ..
  · simp at grown

theorem find?_of_mem (distinct : entries.keys.Nodup) (member : (key, node) ∈ entries) :
    entries.find? key.text = some node := by
  induction entries with
  | nil => simp at member
  | cons first rest ih =>
      obtain ⟨other, _⟩ := first
      obtain ⟨absent, distinctRest⟩ := List.nodup_cons.mp distinct
      rw [find?]
      rcases List.mem_cons.mp member with same | member
      · obtain ⟨rfl, rfl⟩ := Prod.mk.inj same
        rw [if_pos rfl]
      · have differs : other.text ≠ key.text := by
          intro same
          exact absent (List.mem_map.mpr ⟨(key, node), member, same.symm⟩)
        rw [if_neg differs, ih distinctRest member]

theorem cases_openTable (distinct : entries.keys.Nodup)
    (done : openTable key span entries = some changed) :
    (∀ entry ∈ changed, entry ∈ entries ∨ ∃ inner, entry = (key, .table (.header span) inner)) ∧
      ∀ other value whole, (other, .value value whole) ∈ entries →
        (other, .value value whole) ∈ changed := by
  unfold openTable at done
  split at done
  · obtain rfl := Option.some.inj done
    refine ⟨?_, ?_⟩
    · intro entry member
      rcases List.mem_append.mp member with old | new
      · exact .inl old
      · exact .inr ⟨[], List.mem_singleton.mp new⟩
    · intro other value whole member
      exact List.mem_append_left _ member
  · rename_i inner present
    obtain rfl := Option.some.inj done
    refine ⟨?_, ?_⟩
    · intro entry member
      rcases List.mem_append.mp member with old | new
      · exact .inl (List.mem_of_mem_filter old)
      · exact .inr ⟨inner, List.mem_singleton.mp new⟩
    · intro other value whole member
      refine List.mem_append_left _ (List.mem_filter.mpr ⟨member, ?_⟩)
      rw [decide_eq_true_eq]
      intro same
      have found := find?_of_mem distinct member
      rw [same, present] at found
      simp at found
  · simp at done

end Changes

end Entries

namespace Statement

def Makes (statement : Statement) (current : List Key) (key : Key) (node : Node) : Prop :=
  (∀ span, node.span? = some span → span = statement.span) ∧
    ∀ value span, node = .value value span → statement = .entry [key] value span ∧ current = []

end Statement

namespace Draft

structure Extends (draft next : Draft) (statement : Statement) : Prop where
  cases : ∀ entry ∈ next.entries, entry ∈ draft.entries ∨
    (∃ old, (entry.1, old) ∈ draft.entries ∧ old.Grows entry.2) ∨
    statement.topKey? draft.current = some entry.1 ∧
      statement.Makes draft.current entry.1 entry.2 ∧
      (entry.1.text ∉ draft.entries.keys ∨ ∃ span, statement = .table [entry.1] span)
  keeps : ∀ key value span, (key, .value value span) ∈ draft.entries →
    (key, .value value span) ∈ next.entries

theorem extends_of_updates {draft : Draft} {statement : Statement} {key : Key} {Makes : Node → Prop}
    {entries : Entries} {current : List Key} (about : statement.topKey? draft.current = some key)
    (updates : Entries.Updates key Makes draft.entries entries)
    (makes : ∀ node, Makes node → statement.Makes draft.current key node) :
    draft.Extends ⟨entries, current⟩ statement := by
  refine ⟨?_, updates.keeps⟩
  intro entry member
  rcases updates.cases entry member with same | grown | ⟨same, absent, made⟩
  · exact .inl same
  · exact .inr (.inl grown)
  · subst same
    exact .inr (.inr ⟨about, makes _ made, .inl absent⟩)

theorem extends_of_nested {draft : Draft} {statement : Statement} {key next : Key}
    {path current : List Key} {change : Key → Entries → Option Entries} {changed : Entries}
    (about : statement.topKey? draft.current = some key)
    (done : atHeader (key :: next :: path) change draft.entries = some changed) :
    draft.Extends ⟨changed, current⟩ statement := by
  simp only [atHeader, List.getLast?_cons_cons, List.dropLast_cons_cons] at done
  split at done
  · simp at done
  · refine extends_of_updates about (Entries.updates_within done) ?_
    rintro node ⟨inner, rfl⟩
    exact ⟨by simp [Node.span?], by simp⟩

theorem extends_add {draft next : Draft} {statement : Statement}
    (distinct : draft.entries.keys.Nodup) (added : draft.add statement = some next) :
    draft.Extends next statement := by
  cases statement with
  | table path span =>
      obtain ⟨changed, done, rfl⟩ := Option.map_eq_some_iff.mp added
      rcases path with _ | ⟨key, _ | ⟨next, rest⟩⟩
      · simp [atHeader] at done
      · obtain ⟨cases, keeps⟩ := Entries.cases_openTable distinct done
        refine ⟨?_, keeps⟩
        intro entry member
        rcases cases entry member with same | ⟨inner, rfl⟩
        · exact .inl same
        · refine .inr (.inr ⟨rfl, ⟨?_, by simp⟩, .inr ⟨span, rfl⟩⟩)
          intro whole same
          exact (Option.some.inj same).symm
      · exact extends_of_nested rfl done
  | element path span =>
      obtain ⟨changed, done, rfl⟩ := Option.map_eq_some_iff.mp added
      rcases path with _ | ⟨key, _ | ⟨next, rest⟩⟩
      · simp [atHeader] at done
      · refine extends_of_updates rfl (Entries.updates_openElement done) ?_
        rintro node rfl
        exact ⟨fun whole same => (Option.some.inj same).symm, by simp⟩
      · exact extends_of_nested rfl done
  | entry path value span =>
      obtain ⟨changed, done, rfl⟩ := Option.map_eq_some_iff.mp added
      split at done
      · rename_i top
        cases path with
        | nil => simp [Entries.assign] at done
        | cons key rest =>
            have about : (Statement.entry (key :: rest) value span).topKey? draft.current =
                some key := by
              simp [Statement.topKey?, top]
            refine extends_of_updates about (Entries.updates_assign done) ?_
            rintro node (⟨rfl, rfl⟩ | ⟨inner, rfl⟩)
            · refine ⟨fun whole same => (Option.some.inj same).symm, ?_⟩
              intro other whole same
              obtain ⟨rfl, rfl⟩ := Node.value.inj same
              exact ⟨rfl, top⟩
            · exact ⟨by simp [Node.span?], by simp⟩
      · rename_i under
        obtain ⟨key, rest, current⟩ := List.exists_cons_of_ne_nil under
        rw [current] at done
        have about : (Statement.entry path value span).topKey? draft.current = some key := by
          simp [Statement.topKey?, current]
        cases rest with
        | nil => exact extends_of_updates about (Entries.updates_assignUnder done) (by simp)
        | cons next rest => exact extends_of_nested about done

theorem mem_add_entry {draft next : Draft} {key : Key} {value : Value} {span : Span}
    (top : draft.current = []) (added : draft.add (.entry [key] value span) = some next) :
    (key, .value value span) ∈ next.entries := by
  obtain ⟨changed, done, rfl⟩ := Option.map_eq_some_iff.mp added
  rw [if_pos top] at done
  exact Entries.mem_of_update done (fun _ => rfl) rfl

end Draft

/-! What a run of statements leaves behind. -/

/-- The text gives the key that value by an entry that belongs to no table. -/
def GivenAs (statements : List Statement) (key : Key) (value : Value) (span : Span) : Prop :=
  ∃ before after, statements = before ++ .entry [key] value span :: after ∧
    before.foldl Statement.header [] = []

/-- No top-level key of the same text is mentioned before the key. -/
def FirstMention (statements : List Statement) (key : Key) : Prop :=
  ∃ before after, topKeys [] statements = before ++ key :: after ∧
    ∀ other ∈ before, other.text ≠ key.text

/-- What the entries have to do with the statements that made them. -/
structure Describes (statements : List Statement) (draft : Draft) : Prop where
  current : draft.current = statements.foldl Statement.header []
  known : ∀ key ∈ topKeys [] statements, key.text ∈ draft.entries.keys
  named : ∀ entry ∈ draft.entries,
    FirstMention statements entry.1 ∨ ReopenedBy statements entry.1
  valued : ∀ key value span,
    (key, .value value span) ∈ draft.entries ↔ GivenAs statements key value span
  begun : ∀ entry ∈ draft.entries, ∀ span, entry.2.span? = some span →
    ∃ statement ∈ statements, statement.span.start = span.start

section Snoc

variable {statements : List Statement} {statement : Statement} {key : Key} {value : Value}
  {span : Span}

theorem topKeys_append (current : List Key) (statements more : List Statement) :
    topKeys current (statements ++ more) = topKeys current statements ++
      topKeys (statements.foldl Statement.header current) more := by
  induction statements generalizing current with
  | nil => rfl
  | cons statement rest ih =>
      rw [List.cons_append, topKeys, topKeys, ih, List.append_assoc, List.foldl_cons]

theorem FirstMention.snoc (first : FirstMention statements key) :
    FirstMention (statements ++ [statement]) key := by
  obtain ⟨before, after, split, absent⟩ := first
  refine ⟨before, after ++ topKeys (statements.foldl Statement.header []) [statement], ?_, absent⟩
  rw [topKeys_append, split, List.append_assoc, List.cons_append]

theorem ReopenedBy.snoc (reopened : ReopenedBy statements key) :
    ReopenedBy (statements ++ [statement]) key := by
  obtain ⟨before, span, after, rfl, known⟩ := reopened
  exact ⟨before, span, after ++ [statement], by simp, known⟩

theorem givenAs_snoc_iff :
    GivenAs (statements ++ [statement]) key value span ↔
      GivenAs statements key value span ∨
        statement = .entry [key] value span ∧ statements.foldl Statement.header [] = [] := by
  constructor
  · rintro ⟨before, after, split, top⟩
    rcases List.eq_nil_or_concat after with rfl | ⟨after, last, rfl⟩
    · obtain ⟨rfl, same⟩ := List.append_inj' split rfl
      exact .inr ⟨(List.cons.inj same).1, top⟩
    · rw [List.concat_eq_append, ← List.cons_append, ← List.append_assoc] at split
      exact .inl ⟨before, after, (List.append_inj' split rfl).1, top⟩
  · rintro (⟨before, after, rfl, top⟩ | ⟨rfl, top⟩)
    · exact ⟨before, after ++ [statement], by simp, top⟩
    · exact ⟨statements, [], rfl, top⟩

end Snoc

theorem mem_withKey {keys : List String} {key name : String} :
    name ∈ withKey keys key ↔ name ∈ keys ∨ name = key := by
  unfold withKey
  split
  · rename_i known
    constructor
    · exact .inl
    · rintro (member | rfl)
      · exact member
      · exact known
  · simp

theorem Draft.mem_keys_add {draft next : Draft} {statement : Statement}
    (added : draft.add statement = some next) {name : String}
    (member : name ∈ draft.entries.keys ∨
      ∃ key, statement.topKey? draft.current = some key ∧ key.text = name) :
    name ∈ next.entries.keys := by
  obtain ⟨key, about, _, keys⟩ := keys_add added
  have both : name ∈ draft.entries.keys ∨ name = key.text := by
    refine member.imp_right ?_
    rintro ⟨other, same, rfl⟩
    rw [about] at same
    rw [Option.some.inj same]
  rcases keys with placed | ⟨_, _, moved⟩
  · rw [placed]
    exact mem_withKey.mpr both
  · rw [moved, List.mem_append, List.mem_filter, List.mem_singleton, decide_eq_true_eq]
    by_cases same : name = key.text
    · exact .inr same
    · exact .inl ⟨both.resolve_right same, same⟩

namespace Describes

variable {statements : List Statement} {statement : Statement} {draft next : Draft}

theorem named_of_made (describes : Describes statements draft) {key : Key}
    (about : statement.topKey? draft.current = some key)
    (made : key.text ∉ draft.entries.keys ∨ ∃ span, statement = .table [key] span) :
    FirstMention (statements ++ [statement]) key ∨ ReopenedBy (statements ++ [statement]) key := by
  by_cases mentions : key.text ∈ mentioned [] statements
  · rcases made with absent | ⟨span, rfl⟩
    · rw [mentioned_eq, List.mem_map] at mentions
      obtain ⟨other, member, same⟩ := mentions
      exact absurd (same ▸ describes.known other member) absent
    · exact .inr ⟨statements, span, [], rfl, mentions⟩
  · refine .inl ⟨topKeys [] statements, [], ?_, ?_⟩
    · rw [topKeys_append, topKeys, topKeys, ← describes.current, about]
      rfl
    · intro other member same
      rw [mentioned_eq] at mentions
      exact mentions (List.mem_map.mpr ⟨other, member, same⟩)

theorem add (describes : Describes statements draft) (distinct : draft.entries.keys.Nodup)
    (added : draft.add statement = some next) : Describes (statements ++ [statement]) next := by
  have extend := Draft.extends_add distinct added
  obtain ⟨_, _, current, _⟩ := Draft.keys_add added
  constructor
  · rw [current, describes.current, List.foldl_append, List.foldl_cons, List.foldl_nil]
  · intro key member
    rw [topKeys_append, ← describes.current, List.mem_append] at member
    refine Draft.mem_keys_add added ?_
    rcases member with before | last
    · exact .inl (describes.known key before)
    · simp only [topKeys, List.append_nil, Option.mem_toList] at last
      exact .inr ⟨key, last, rfl⟩
  · intro entry member
    rcases extend.cases entry member with same | ⟨old, before, _⟩ | ⟨about, _, made⟩
    · exact (describes.named entry same).imp .snoc .snoc
    · exact (describes.named _ before).imp .snoc .snoc
    · exact describes.named_of_made about made
  · intro key value span
    rw [givenAs_snoc_iff, ← describes.valued key value span, ← describes.current]
    constructor
    · intro member
      rcases extend.cases _ member with same | ⟨old, _, grown⟩ | ⟨_, makes, _⟩
      · exact .inl same
      · exact absurd rfl (grown.2.1 value span)
      · exact .inr (makes.2 value span rfl)
    · rintro (before | ⟨rfl, top⟩)
      · exact extend.keeps key value span before
      · exact Draft.mem_add_entry top added
  · intro entry member span spanned
    rcases extend.cases entry member with same | ⟨old, before, grown⟩ | ⟨_, makes, _⟩
    · obtain ⟨other, earlier, start⟩ := describes.begun entry same span spanned
      exact ⟨other, List.mem_append_left _ earlier, start⟩
    · have begins := grown.2.2
      rw [spanned, Option.map_some, eq_comm, Option.map_eq_some_iff] at begins
      obtain ⟨oldSpan, oldSpanned, same⟩ := begins
      obtain ⟨other, earlier, start⟩ := describes.begun _ before oldSpan oldSpanned
      exact ⟨other, List.mem_append_left _ earlier, start.trans same⟩
    · exact ⟨statement, by simp, by rw [makes.1 span spanned]⟩

end Describes

-- The second header reopens the table that the first one implied, and the entry goes by its key.
example :
    (document? "[y.x]\n[y]\n".toList).map (fun entries => entries.map Prod.fst) =
      some [⟨"y", ⟨3, 2⟩⟩] := rfl

end RomCatalog.Toml
