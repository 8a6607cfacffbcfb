import RomCatalog.Rom
import RomCatalog.Text.Utf8

/-!
The table that the generated code declares: the identifier and the contents of every ROM, in the
order of the manifest.
-/

namespace RomCatalog

abbrev Table := List (String × Bytes)

namespace Table

/-- The table of the ROMs once their files are embedded. -/
def embed (contents : Rom → Bytes) (roms : List Rom) : Table :=
  roms.map fun rom => (rom.identifier, contents rom)

def find? (table : Table) (identifier : String) : Option Bytes :=
  List.lookup identifier table

end Table

end RomCatalog
