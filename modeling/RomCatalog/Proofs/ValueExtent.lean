import RomCatalog.Proofs.StringExtent

/-!
How far the readers of keys and values look. Where a key stands is told by what is left of the whole
text, so a key that is read in a shorter text is the same but for that.
-/

namespace RomCatalog.Toml

section Keys

variable {text rest : List Char}

end Keys

section Values

variable {text rest : List Char} {value : Value} {inner : Reader Value}

section Arrays

variable {start items after left : List Char} {first : Value} {fuel : Nat}

end Arrays

section Tables

variable {start afterPath afterValue left : List Char} {path : List Key} {entry : Value} {fuel : Nat}

end Tables

end Values

end RomCatalog.Toml
