import Mathlib.Data.List.DropRight
import RomCatalog.Proofs.PathComponents

/-!
Going up and down by components. The parent of a path has all components but the last, and joining
puts those of a relative path behind those that are there, however the paths are spelled. So what is
joined to the parent of a path has the components that it has beside the last one of the path.
-/

namespace RomCatalog

namespace Text

variable {α : Type} [DecidableEq α] {separator : α}

theorem notMem_of_mem_pieces {items piece : List α} (member : piece ∈ pieces separator items) :
    separator ∉ piece := by
  induction items generalizing piece with
  | nil =>
      obtain rfl : piece = [] := by simpa [pieces] using member
      simp
  | cons item rest ih =>
      rw [pieces] at member
      split at member
      · rcases List.mem_cons.mp member with rfl | later
        · simp
        · exact ih later
      · rename_i differs
        cases found : pieces separator rest with
        | nil => exact absurd found (pieces_ne_nil separator rest)
        | cons first more =>
            rw [found] at member ih
            rcases List.mem_cons.mp member with rfl | later
            · rw [List.mem_cons, not_or]
              exact ⟨Ne.symm differs, ih (by simp)⟩
            · exact ih (by simp [later])

omit [DecidableEq α] in
theorem joinPieces_cons {first : List α} {rest : List (List α)} (more : rest ≠ []) :
    joinPieces separator (first :: rest) = first ++ separator :: joinPieces separator rest := by
  cases rest with
  | nil => exact absurd rfl more
  | cons second others => rfl

omit [DecidableEq α] in
theorem joinPieces_append {kept dropped : List (List α)} (nonempty : kept ≠ [])
    (more : dropped ≠ []) :
    joinPieces separator (kept ++ dropped) =
      joinPieces separator kept ++ separator :: joinPieces separator dropped := by
  induction kept with
  | nil => exact absurd rfl nonempty
  | cons first rest ih =>
      cases rest with
      | nil => exact joinPieces_cons more
      | cons second others =>
          have head : joinPieces separator (first :: second :: others) =
              first ++ separator :: joinPieces separator (second :: others) := rfl
          rw [List.cons_append, joinPieces_cons (by simp), ih (by simp), head, List.append_assoc,
            List.cons_append]

theorem ends_of_pieces {items : List α} {more : List (List α)}
    (empty : pieces separator items = [] :: more) : items = [] ∨ items.head? = some separator := by
  cases items with
  | nil => exact .inl rfl
  | cons item rest =>
      rw [pieces] at empty
      split at empty
      · rename_i same
        exact .inr (by simp [same])
      · split at empty
        · simp at empty
        · simp at empty

theorem pieces_joinPieces {list : List (List α)} (nonempty : list ≠ [])
    (whole : ∀ piece ∈ list, separator ∉ piece) :
    pieces separator (joinPieces separator list) = list := by
  induction list with
  | nil => exact absurd rfl nonempty
  | cons first rest ih =>
      rw [List.forall_mem_cons] at whole
      cases rest with
      | nil => exact pieces_of_notMem separator whole.1
      | cons second others =>
          rw [joinPieces_cons (by simp), pieces_append_cons whole.1, ih (by simp) whole.2]

end Text

namespace Path

/-- Two stretches of a path meet where a separator stands, or the path ends between them. -/
def Meet (left right : Bytes) : Prop :=
  left.getLast? = some separator ∨ right = [] ∨ right.head? = some separator

theorem through_append_of_meet {left right : Bytes} (meet : Meet left right) :
    through (left ++ right) = through left ++ through right := by
  rcases meet with closed | rfl | opened
  · exact through_append_of_closed closed right
  · simp
  · obtain ⟨rest, rfl⟩ := List.head?_eq_some_iff.mp opened
    rw [through_append, through_separator]

theorem leadComponent_cons (first : UInt8) (rest : Bytes) :
    leadComponent ⟨first :: rest⟩ =
      if first = separator then [.root]
      else if first = dot ∧ (rest = [] ∨ rest.head? = some separator) then [.here]
      else [] := by
  by_cases slash : first = separator
  · simp [leadComponent, isAbsolute, slash]
  · have relative : isAbsolute ⟨first :: rest⟩ = false := by simp [isAbsolute, slash]
    rw [leadComponent, relative, if_neg Bool.false_ne_true, if_neg slash]
    by_cases stays : first = dot ∧ (rest = [] ∨ rest.head? = some separator)
    · simp [lead, stays]
    · simp [lead, slash, stays]

theorem leadComponent_append {left right : Bytes} (nonempty : left ≠ []) (meet : Meet left right) :
    leadComponent ⟨left ++ right⟩ = leadComponent ⟨left⟩ := by
  obtain ⟨first, rest, rfl⟩ := List.exists_cons_of_ne_nil nonempty
  rw [List.cons_append, leadComponent_cons, leadComponent_cons]
  by_cases slash : first = separator
  · rw [if_pos slash, if_pos slash]
  · have sameEnd : rest ++ right = [] ∨ (rest ++ right).head? = some separator ↔
        rest = [] ∨ rest.head? = some separator := by
      cases rest with
      | cons second others => simp
      | nil =>
          have opened := meet.resolve_left (by simpa using slash)
          simpa using opened
    simp only [slash, if_false, sameEnd]

theorem components_append {left right : Bytes} (nonempty : left ≠ []) (meet : Meet left right) :
    components ⟨left ++ right⟩ = components ⟨left⟩ ++ through right := by
  rw [components_eq, components_eq, leadComponent_append nonempty meet, through_append_of_meet meet,
    List.append_assoc]

theorem components_eq_nil_iff (path : Path) : path.components = [] ↔ path.bytes = [] := by
  obtain ⟨bytes⟩ := path
  cases bytes with
  | nil => exact ⟨fun _ => rfl, fun _ => rfl⟩
  | cons first rest =>
      refine ⟨?_, fun none => nomatch none⟩
      intro none
      rw [components_eq, List.append_eq_nil_iff, leadComponent_cons] at none
      obtain ⟨unled, unnamed⟩ := none
      split at unled
      · simp at unled
      rename_i notSlash
      split at unled
      · simp at unled
      rename_i moves
      obtain ⟨head, more, found⟩ := List.exists_cons_of_ne_nil (Text.pieces_ne_nil separator rest)
      have piece : component? (first :: head) = none := by
        rw [through, Text.pieces, if_neg notSlash, found, List.filterMap_eq_nil_iff] at unnamed
        exact unnamed _ (by simp)
      have isDot : first :: head = [dot] := by
        by_contra other
        unfold component? at piece
        split at piece
        · simp_all
        · split at piece <;> simp at piece
      obtain ⟨rfl, rfl⟩ := List.cons.inj isDot
      exact absurd ⟨rfl, Text.ends_of_pieces found⟩ moves

theorem components_join {right : Path} (relative : right.isAbsolute = false) (left : Path) :
    (left.join right).components =
      if left.components = [] then right.components else left.components ++ right.route := by
  have unstarted : right.route = through right.bytes := by
    rw [route_eq, start, relative]
    rfl
  simp only [components_eq_nil_iff, join, relative, Bool.false_eq_true, if_false, unstarted]
  by_cases none : left.bytes = []
  · simp [none]
  · rw [if_neg none]
    split
    · rename_i closed
      have closed : left.bytes.getLast? = some separator := by simpa [none] using closed
      exact components_append none (.inl closed)
    · rw [components_append none (.inr (.inr rfl)), through_separator]

/-! The path above. -/

theorem trimPieces_eq (list : List Bytes) :
    trimPieces list = list.rdropWhile fun piece => (component? piece).isNone :=
  rfl

theorem trimPieces_append (list : List Bytes) :
    ∃ blank, list = trimPieces list ++ blank ∧ blank.filterMap component? = [] := by
  refine ⟨list.rtakeWhile fun piece => (component? piece).isNone, ?_, ?_⟩
  · rw [trimPieces_eq, List.rdropWhile_append_rtakeWhile]
  · rw [List.filterMap_eq_nil_iff]
    intro piece member
    have unnamed := List.mem_rtakeWhile_imp (p := fun piece => (component? piece).isNone) member
    exact Option.isNone_iff_eq_none.mp unnamed

theorem component?_of_trimPieces {list trimmed : List Bytes} {last : Bytes}
    (trims : trimPieces list = trimmed ++ [last]) :
    ∃ component, component? last = some component := by
  rw [trimPieces_eq] at trims
  have nonempty : (list.rdropWhile fun piece => (component? piece).isNone) ≠ [] := by
    simp [trims]
  have ended := List.rdropWhile_last_not _ list nonempty
  simp only [trims, List.getLast_append_singleton, Option.isNone_iff_eq_none] at ended
  exact Option.ne_none_iff_exists'.mp ended

theorem lead_append (path : Path) : path.lead.1 ++ path.lead.2 = path.bytes := by
  unfold lead
  split
  · rename_i none
    rw [none]
    rfl
  · rename_i first rest written
    rw [written]
    split
    · rfl
    split
    · rfl
    · rfl

theorem meet_lead {path : Path} (led : path.lead.1 ≠ []) : Meet path.lead.1 path.lead.2 := by
  unfold lead at led ⊢
  split at led
  · simp at led
  split at led
  · rename_i slash
    rw [if_pos slash, slash]
    exact .inl rfl
  split at led
  · rename_i slash stays
    rw [if_neg slash, if_pos stays]
    exact .inr stays.2
  · simp at led

theorem leadComponent_of_unled {path : Path} (unled : path.lead.1 = []) :
    path.leadComponent = [] := by
  have relative : path.isAbsolute = false := by
    unfold lead at unled
    split at unled
    · rename_i none
      simp [isAbsolute, none]
    · rename_i first rest written
      split at unled
      · simp at unled
      · rename_i notSlash
        simp [isAbsolute, written, notSlash]
  rw [leadComponent, relative, if_neg Bool.false_ne_true, if_pos unled]

theorem through_joinPieces {list : List Bytes} (whole : ∀ piece ∈ list, separator ∉ piece) :
    through (Text.joinPieces separator list) = list.filterMap component? := by
  by_cases none : list = []
  · rw [none]
    rfl
  · rw [through, Text.pieces_joinPieces none whole]

theorem components_of_pieces {path : Path} {kept dropped : List Bytes} {component : Component}
    (cut : Text.pieces separator path.lead.2 = kept ++ dropped)
    (last : dropped.filterMap component? = [component]) :
    path.components =
      components ⟨path.lead.1 ++ Text.joinPieces separator kept⟩ ++ [component] := by
  have whole : ∀ piece ∈ kept ++ dropped, separator ∉ piece := by
    intro piece member
    rw [← cut] at member
    exact Text.notMem_of_mem_pieces member
  rw [List.forall_mem_append] at whole
  have more : dropped ≠ [] := by
    rintro rfl
    simp at last
  have rejoined : path.lead.2 = Text.joinPieces separator (kept ++ dropped) := by
    rw [← cut, Text.joinPieces_pieces]
  by_cases nothing : path.lead.1 ++ Text.joinPieces separator kept = []
  · -- the path has no lead, and the pieces that are kept name nothing
    have parts := List.append_eq_nil_iff.mp nothing
    have unnamed : kept.filterMap component? = [] := by
      rw [← through_joinPieces whole.1, parts.2, through_nil]
    rw [nothing, components, leadComponent_of_unled parts.1, cut, List.filterMap_append, unnamed,
      last]
    rfl
  · have dropping : through (Text.joinPieces separator dropped) = [component] := by
      rw [through_joinPieces whole.2, last]
    by_cases none : kept = []
    · subst none
      rw [List.nil_append] at rejoined
      have led : path.lead.1 ≠ [] := by simpa [Text.joinPieces] using nothing
      have split := components_append led (meet_lead led)
      rw [lead_append, rejoined, dropping] at split
      simpa [Text.joinPieces] using split
    · have split := components_append nothing
        (.inr (.inr rfl) : Meet _ (separator :: Text.joinPieces separator dropped))
      rw [through_separator, dropping, List.append_assoc, ← Text.joinPieces_append none more,
        ← rejoined, lead_append] at split
      exact split

theorem parent?_of_trimPieces {path : Path} {before : List Bytes} {last : Bytes}
    (trims : trimPieces (Text.pieces separator path.lead.2) = before ++ [last]) :
    path.parent? = some ⟨path.lead.1 ++ Text.joinPieces separator (trimPieces before)⟩ := by
  simp only [parent?]
  split
  · rename_i none
    rw [trims] at none
    simp at none
  · rename_i written
    rw [← written, trims, List.dropLast_concat]

/-- A parent has all components but the last. What has no parent has at most one. -/
theorem components_parent (path : Path) :
    (path.parent?.getD empty).components = path.components.dropLast := by
  obtain ⟨blank, ends, unnamed⟩ := trimPieces_append (Text.pieces separator path.lead.2)
  rcases List.eq_nil_or_concat (trimPieces (Text.pieces separator path.lead.2)) with
    none | ⟨before, last, trims⟩
  · have nowhere : path.parent?.getD empty = empty := by
      simp only [parent?, none]
      split <;> rfl
    have led : path.components = path.leadComponent := by
      rw [components, ends, none, List.nil_append, unnamed, List.append_nil]
    have short : path.leadComponent.dropLast = [] := by
      unfold leadComponent
      split
      · rfl
      · split <;> rfl
    rw [nowhere, led, short]
    rfl
  · rw [List.concat_eq_append] at trims
    obtain ⟨component, named⟩ := component?_of_trimPieces trims
    obtain ⟨gap, cut, gapUnnamed⟩ := trimPieces_append before
    have pieces : Text.pieces separator path.lead.2 =
        trimPieces before ++ (gap ++ last :: blank) := by
      rw [ends, trims]
      nth_rewrite 1 [cut]
      simp
    have dropping : (gap ++ last :: blank).filterMap component? = [component] := by
      rw [List.filterMap_append, gapUnnamed, List.filterMap_cons, named, unnamed]
      rfl
    rw [parent?_of_trimPieces trims, components_of_pieces pieces dropping, List.dropLast_concat]
    rfl

end Path

end RomCatalog
