import RomCatalog.Proofs.Extent
import RomCatalog.Proofs.KeySpelling

/-!
How far the readers of strings look. A string over several lines ends with three marks, of which up
to two more may stand before them, so the characters after it could matter only if they were marks.
-/

namespace RomCatalog.Toml

namespace Reaches

variable {reader next : Reader (List Char)} {found text rest : List Char} {c : Char}

end Reaches

section Closing

variable {mark : Char} {text found rest : List Char}

end Closing

end RomCatalog.Toml
