import RomCatalog.Proofs.TopLevelKeys
import RomCatalog.Proofs.Utf8
import RomCatalog.Proofs.ValueExtent

/-!
Where keys, values and statements stand in a text. Their spans are told by what is left of the text,
so they stay right for every longer text that ends with the one that was read.
-/

namespace RomCatalog

namespace Toml

open Spelling

def Span.Starts (span : Span) (text : List Char) : Prop :=
  ∃ before rest, text = before ++ rest ∧ rest ≠ [] ∧ span.start = Utf8.size rest

/-- The key is spelled where its span says, before `rest`. -/
def Key.Stands (key : Key) (text rest : List Char) : Prop :=
  ∃ before written after, text = before ++ (written ++ after) ∧ rest <:+ after ∧
    SpellsKey key.text.toList written ∧ key.span = Span.between (written ++ after) after

/-- The key, an equals sign and the value, with blanks around the sign, stand where the spans of
key and value say. What stands there as the value is read as the value all by itself. -/
def Gives (text : List Char) (key : Key) (value : Value) (span : Span) : Prop :=
  ∃ before written left right cut after,
    text = before ++ (written ++ (left ++ '=' :: (right ++ (cut ++ after)))) ∧
    SpellsKey key.text.toList written ∧ (∀ c ∈ left ++ right, isBlank c = true) ∧
    key.span = Span.between (written ++ (left ++ '=' :: (right ++ (cut ++ after))))
      (left ++ '=' :: (right ++ (cut ++ after))) ∧
    span = Span.between (cut ++ after) after ∧ value? depthLimit cut = some (value, [])

section Longer

variable {text whole : List Char} {span : Span} {key : Key} {value : Value}

end Longer

section Keys

variable {text rest : List Char} {parts : Nat} {path : List Key}

end Keys

namespace Statement

def path : Statement → List Key
  | .entry path _ _ => path
  | .table path _ => path
  | .element path _ => path

def span : Statement → Span
  | .entry _ _ span => span
  | .table _ span => span
  | .element _ span => span

structure Stands (statement : Statement) (text rest : List Char) : Prop where
  ends : rest <:+ text
  keys : ∀ key ∈ statement.path, key.Stands text rest
  starts : statement.span.Starts text
  gives : ∀ key value span, statement = .entry [key] value span → Gives text key value span

end Statement

section Statements

variable {text rest : List Char} {statement : Statement}

inductive StandAll : List Char → List Statement → Prop
  | nil {text : List Char} : StandAll text []
  | cons {text start rest : List Char} {statement : Statement} {more : List Statement} :
      start <:+ text → statement.Stands start rest → StandAll rest more →
        StandAll text (statement :: more)

theorem StandAll.stands {statements : List Statement} (stand : StandAll text statements)
    (member : statement ∈ statements) :
    ∃ start rest, start <:+ text ∧ statement.Stands start rest := by
  induction stand with
  | nil => simp at member
  | cons ends first _ ih =>
      rcases List.mem_cons.mp member with rfl | later
      · exact ⟨_, _, ends, first⟩
      · obtain ⟨start, rest, endsLater, stands⟩ := ih later
        exact ⟨start, rest, endsLater.trans (first.ends.trans ends), stands⟩

end Statements

/-! The keys at the top, in the order of the text. -/

/-- The keys that statements are about, as they are written; each entry of a table counts as one
more mention of the header of its table. -/
def topKeys (current : List Key) : List Statement → List Key
  | [] => []
  | statement :: rest =>
      (statement.topKey? current).toList ++ topKeys (statement.header current) rest

theorem mentioned_eq (current : List Key) (statements : List Statement) :
    mentioned current statements = (topKeys current statements).map Key.text := by
  induction statements generalizing current with
  | nil => rfl
  | cons statement rest ih => rw [mentioned, topKeys, List.map_append, ih]

end Toml

end RomCatalog
