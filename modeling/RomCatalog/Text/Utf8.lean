/-!
UTF-8. Names and contents of files are bytes and need not be text, so decoding reads any byte
sequence: each well-formed sequence gives its character, and each longest run of bytes that begins
one but does not finish it, or that can begin none, gives `none`.
-/

namespace RomCatalog

abbrev Bytes := List UInt8

namespace Utf8

def encodeChar (c : Char) : Bytes :=
  let n := c.toNat
  if n < 0x80 then [n.toUInt8]
  else if n < 0x800 then [(0xC0 + n / 64).toUInt8, (0x80 + n % 64).toUInt8]
  else if n < 0x10000 then
    [(0xE0 + n / 4096).toUInt8, (0x80 + n / 64 % 64).toUInt8, (0x80 + n % 64).toUInt8]
  else
    [(0xF0 + n / 262144).toUInt8, (0x80 + n / 4096 % 64).toUInt8, (0x80 + n / 64 % 64).toUInt8,
      (0x80 + n % 64).toUInt8]

def encodeChars (text : List Char) : Bytes :=
  text.flatMap encodeChar

def size (text : List Char) : Nat :=
  text.foldr (fun c bytes => c.utf8Size + bytes) 0

def encode (text : String) : Bytes :=
  encodeChars text.toList

/-- Where decoding stands between two bytes. Inside a character, `missing + 1` bytes are still to
come, the next of them from `low` to `high`, and `value` holds the bits read so far. -/
inductive State where
  | start
  | inside (missing low high value : Nat)

/-- The effect of a byte that can only begin a character. -/
def begin (byte : Nat) : List (Option Char) × State :=
  if byte < 0x80 then ([some (Char.ofNat byte)], .start)
  else if byte < 0xC2 then ([none], .start)
  else if byte < 0xE0 then ([], .inside 0 0x80 0xBF (byte - 0xC0))
  else if byte = 0xE0 then ([], .inside 1 0xA0 0xBF 0)
  else if byte = 0xED then ([], .inside 1 0x80 0x9F (byte - 0xE0))
  else if byte < 0xF0 then ([], .inside 1 0x80 0xBF (byte - 0xE0))
  else if byte = 0xF0 then ([], .inside 2 0x90 0xBF 0)
  else if byte < 0xF4 then ([], .inside 2 0x80 0xBF (byte - 0xF0))
  else if byte = 0xF4 then ([], .inside 2 0x80 0x8F 4)
  else ([none], .start)

/-- A byte that does not fit ends the unfinished character and is looked at afresh. -/
def step (state : State) (byte : Nat) : List (Option Char) × State :=
  match state with
  | .start => begin byte
  | .inside missing low high value =>
      if low ≤ byte ∧ byte ≤ high then
        let value := value * 64 + (byte - 0x80)
        match missing with
        | 0 => ([some (Char.ofNat value)], .start)
        | missing + 1 => ([], .inside missing 0x80 0xBF value)
      else (none :: (begin byte).1, (begin byte).2)

def decodeFrom : State → Bytes → List (Option Char)
  | .start, [] => []
  | .inside .., [] => [none]
  | state, byte :: rest => (step state byte.toNat).1 ++ decodeFrom (step state byte.toNat).2 rest

def decode (bytes : Bytes) : List (Option Char) :=
  decodeFrom .start bytes

def decode? (bytes : Bytes) : Option String :=
  if (decode bytes).all Option.isSome then some (String.ofList ((decode bytes).filterMap id))
  else none

/-- What can be shown of the bytes: a replacement character stands for each ill-formed part. -/
def decodeLossy (bytes : Bytes) : String :=
  String.ofList ((decode bytes).map (·.getD '\uFFFD'))

end Utf8

end RomCatalog
