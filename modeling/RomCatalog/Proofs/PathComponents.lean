import RomCatalog.Proofs.EmbedPath

/-!
The components of joined paths. But for components that stay where they are, joining a relative
path puts its components behind those that are there already, however either path is spelled.
-/

namespace RomCatalog

namespace Text

variable {α : Type} [DecidableEq α] (separator : α)

theorem pieces_append (left right : List α) :
    pieces separator (left ++ separator :: right) =
      pieces separator left ++ pieces separator right := by
  induction left with
  | nil => simp [pieces]
  | cons item left ih =>
      simp only [List.cons_append, pieces]
      split
      · rw [ih, List.cons_append]
      · rw [ih]
        cases found : pieces separator left with
        | nil => exact absurd found (pieces_ne_nil separator left)
        | cons first more => rfl

theorem pieces_of_notMem {piece : List α} (whole : separator ∉ piece) :
    pieces separator piece = [piece] := by
  induction piece with
  | nil => rfl
  | cons item piece ih =>
      rw [List.mem_cons, not_or] at whole
      have differs : item ≠ separator := Ne.symm whole.1
      rw [pieces, if_neg differs, ih whole.2]

end Text

namespace Path

/-- What the pieces of a path lead through. The places between separators that name nothing are
passed over, at the start of the path as well. -/
def through (bytes : Bytes) : List Component :=
  (Text.pieces separator bytes).filterMap component?

@[simp] theorem through_nil : through [] = [] := rfl

theorem through_append (left right : Bytes) :
    through (left ++ separator :: right) = through left ++ through right := by
  rw [through, Text.pieces_append, List.filterMap_append]
  rfl

theorem through_separator (bytes : Bytes) : through (separator :: bytes) = through bytes :=
  through_append [] bytes

theorem through_append_of_closed {left : Bytes} (closed : left.getLast? = some separator)
    (right : Bytes) : through (left ++ right) = through left ++ through right := by
  obtain ⟨start, rfl⟩ := List.getLast?_eq_some_iff.mp closed
  have trailing : through (start ++ [separator]) = through start := by
    rw [through_append, through_nil, List.append_nil]
  rw [trailing, List.append_assoc]
  exact through_append start right

theorem through_dot {rest : Bytes} (ends : rest = [] ∨ rest.head? = some separator) :
    through (dot :: rest) = through rest := by
  rcases ends with rfl | starts
  · rfl
  · cases rest with
    | nil => rfl
    | cons first rest =>
        obtain rfl : first = separator := by simpa using starts
        rw [through_separator]
        exact through_append [dot] rest

theorem through_name {name : Bytes} (whole : separator ∉ name) :
    through name = (component? name).toList := by
  rw [through, Text.pieces_of_notMem separator whole]
  cases found : component? name <;> simp [found]

theorem component?_ne_here (piece : Bytes) : component? piece ≠ some .here := by
  unfold component?
  split
  · simp
  split
  · simp
  · simp

theorem here_notMem_through (bytes : Bytes) : .here ∉ through bytes := by
  intro member
  obtain ⟨piece, _, found⟩ := List.mem_filterMap.mp member
  exact component?_ne_here piece found

theorem through_lead (path : Path) : through path.lead.2 = through path.bytes := by
  unfold lead
  split
  · rename_i empty
    rw [empty]
  · rename_i first rest written
    rw [written]
    split
    · rename_i slash
      rw [slash, through_separator]
    split
    · rename_i stays
      rw [stays.1, through_dot stays.2]
    · rfl

/-- The components that lead somewhere: all but those that stay in place. -/
def route (path : Path) : List Component :=
  path.components.filter (· ≠ .here)

def start (path : Path) : List Component :=
  if path.isAbsolute then [.root] else []

theorem route_eq (path : Path) : path.route = path.start ++ through path.bytes := by
  have kept : (through path.bytes).filter (· ≠ .here) = through path.bytes := by
    rw [List.filter_eq_self]
    intro component member
    rw [decide_eq_true_eq]
    rintro rfl
    exact here_notMem_through path.bytes member
  have led : path.leadComponent.filter (· ≠ .here) = path.start := by
    unfold leadComponent start
    split
    · rfl
    · split <;> rfl
  rw [route, components, List.filter_append, led, ← through, through_lead, kept]

theorem components_eq (path : Path) :
    path.components = path.leadComponent ++ through path.bytes := by
  rw [components, ← through, through_lead]

/-- The route of a path is all of its components but a leading `.`. -/
theorem components_cases (path : Path) :
    path.components = path.route ∨ path.components = .here :: path.route := by
  rw [components_eq, route_eq]
  unfold leadComponent start
  split
  · exact .inl rfl
  split
  · exact .inl rfl
  · exact .inr rfl

theorem isAbsolute_join (left right : Path) :
    (left.join right).isAbsolute = (left.isAbsolute || right.isAbsolute) := by
  unfold join
  split
  · rename_i absolute
    rw [absolute, Bool.or_true]
  rename_i relative
  rw [Bool.not_eq_true] at relative
  rw [relative, Bool.or_false]
  obtain ⟨bytes⟩ := left
  cases bytes with
  | nil => exact relative
  | cons first rest => split <;> rfl

theorem route_join {right : Path} (relative : right.isAbsolute = false) (left : Path) :
    (left.join right).route = left.route ++ right.route := by
  have joined : through (left.join right).bytes = through left.bytes ++ through right.bytes := by
    rw [join, relative, if_neg Bool.false_ne_true]
    split
    · rename_i open?
      rw [Bool.or_eq_true, List.isEmpty_iff, beq_iff_eq] at open?
      rcases open? with empty | closed
      · rw [empty]
        rfl
      · exact through_append_of_closed closed right.bytes
    · exact through_append left.bytes right.bytes
  have started : (left.join right).start = left.start := by
    rw [start, isAbsolute_join, relative, Bool.or_false]
    rfl
  have unstarted : right.start = [] := by
    rw [start, relative]
    rfl
  rw [route_eq, route_eq, route_eq, joined, started, unstarted, List.nil_append,
    List.append_assoc]

/-- The path can be written as a text. -/
def IsText (path : Path) : Prop :=
  ∃ text, ofString text = path

theorem ofString_text {path : Path} (isText : path.IsText) : ofString path.text = path := by
  obtain ⟨text, rfl⟩ := isText
  rw [text_ofString]

theorem IsText.join {left right : Path} (leftIsText : left.IsText) (rightIsText : right.IsText) :
    (left.join right).IsText := by
  obtain ⟨leftText, rfl⟩ := leftIsText
  obtain ⟨rightText, rfl⟩ := rightIsText
  unfold Path.join
  split
  · exact ⟨rightText, rfl⟩
  split
  · exact ⟨leftText ++ rightText, by simp [ofString, Utf8.encode, Utf8.encodeChars]⟩
  · exact ⟨leftText ++ (separatorText ++ rightText), by
      simp [ofString, Utf8.encode, Utf8.encodeChars, separatorText, Utf8.encodeChar, separator]⟩

end Path

end RomCatalog
