/-!
The pieces of a sequence between the places where a separator stands. There is always one piece
more than there are separators, so joining the pieces gives the sequence back.
-/

namespace RomCatalog.Text

def pieces {α : Type} [DecidableEq α] (separator : α) : List α → List (List α)
  | [] => [[]]
  | item :: rest =>
      if item = separator then [] :: pieces separator rest
      else match pieces separator rest with
        | [] => [[item]]
        | first :: more => (item :: first) :: more

def joinPieces {α : Type} (separator : α) : List (List α) → List α
  | [] => []
  | [last] => last
  | first :: rest => first ++ separator :: joinPieces separator rest

theorem pieces_ne_nil {α : Type} [DecidableEq α] (separator : α) (items : List α) :
    pieces separator items ≠ [] := by
  cases items with
  | nil => simp [pieces]
  | cons item rest =>
      simp only [pieces]
      split
      · simp
      · split <;> simp

theorem joinPieces_pieces {α : Type} [DecidableEq α] (separator : α) (items : List α) :
    joinPieces separator (pieces separator items) = items := by
  induction items with
  | nil => rfl
  | cons item rest ih =>
      simp only [pieces]
      split
      · rename_i same
        cases found : pieces separator rest with
        | nil => exact absurd found (pieces_ne_nil separator rest)
        | cons first more => rw [found] at ih; simp [joinPieces, ih, same]
      · cases found : pieces separator rest with
        | nil => exact absurd found (pieces_ne_nil separator rest)
        | cons first more =>
            rw [found] at ih
            cases more with
            | nil => simpa [joinPieces] using ih
            | cons second others => simpa [joinPieces] using ih

/-- A separator ends the piece before it. -/
theorem pieces_append_cons {α : Type} [DecidableEq α] {separator : α} {piece : List α}
    (whole : separator ∉ piece) (rest : List α) :
    pieces separator (piece ++ separator :: rest) = piece :: pieces separator rest := by
  induction piece with
  | nil => simp [pieces]
  | cons item piece ih =>
      have differs : item ≠ separator := fun same => whole (by simp [same])
      have tail : separator ∉ piece := fun member => whole (List.mem_cons_of_mem _ member)
      simp [pieces, differs, ih tail]

end RomCatalog.Text
