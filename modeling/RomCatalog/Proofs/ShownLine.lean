import Mathlib.Data.List.Basic
import RomCatalog.Failure
import RomCatalog.Proofs.PathComponents
import RomCatalog.Proofs.Utf8
import RomCatalog.Toml.Excerpt

/-!
The line that a message about a settings file shows. It is the whole line of the text in which the
stretch in question starts, under the number of that line.
-/

namespace RomCatalog

/-- The line stands between two line feeds, or between one and an end of the text. -/
structure Text.IsLine (text above line below : List Char) : Prop where
  whole : text = above ++ (line ++ below)
  unbroken : '\n' ∉ line
  begins : above = [] ∨ ∃ earlier, above = earlier ++ ['\n']
  ends : below = [] ∨ ∃ later, below = '\n' :: later

theorem Text.IsLine.behind {text above line below : List Char}
    (isLine : IsLine text above line below) (earlier : List Char) :
    IsLine (earlier ++ '\n' :: text) (earlier ++ '\n' :: above) line below := by
  refine ⟨?_, isLine.unbroken, ?_, isLine.ends⟩
  · rw [isLine.whole, List.append_assoc, List.cons_append]
  · rcases isLine.begins with rfl | ⟨before, rfl⟩
    · exact .inr ⟨earlier, rfl⟩
    · exact .inr ⟨earlier ++ '\n' :: before, by simp⟩

namespace Toml

/-- The start of a message: where in the text to look, and the line of the text under its number.
Each line of the message ends with `feed`. -/
def opening (feed : String) (number column : Nat) (line : List Char) : String :=
  ("TOML parse error at line " ++ toString number ++ ", column " ++ toString column) ++ feed ++
    (String.ofList (List.replicate ((toString number).length + 1) ' ') ++ "|") ++ feed ++
    (toString number ++ " | " ++ String.ofList line) ++ feed

end Toml

namespace Record

theorem hanging_append (left right : String) :
    hanging (left ++ right) = hanging left ++ hanging right := by
  simp [hanging, String.ofList_append]

theorem hanging_unbroken {text : String} (unbroken : '\n' ∉ text.toList) : hanging text = text := by
  have same : text.toList.flatMap (fun c => if c = '\n' then '\n' :: indent else [c]) =
      text.toList.flatMap fun c => [c] := by
    refine List.flatMap_congr fun c member => if_neg ?_
    rintro rfl
    exact unbroken member
  rw [hanging, same, List.flatMap_singleton', String.ofList_toList]

end Record

end RomCatalog
