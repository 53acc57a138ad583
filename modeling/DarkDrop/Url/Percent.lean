import DarkDrop.Text.Utf8

namespace DarkDrop.Url

def isControl (c : Char) : Bool := c.toNat < 0x20 || 0x7e < c.toNat

def inFragment (c : Char) : Bool := isControl c || c ∈ [' ', '"', '<', '>', '\x60']
def inQuery (c : Char) : Bool := isControl c || c ∈ [' ', '"', '#', '<', '>']
def inSpecialQuery (c : Char) : Bool := inQuery c || c == '\''
def inPath (c : Char) : Bool := inFragment c || c ∈ ['#', '?', '{', '}']
def inUserinfo (c : Char) : Bool :=
  inPath c || c ∈ ['/', ':', ';', '=', '@', '[', '\\', ']', '^', '|']

def inSegment (c : Char) : Bool := inPath c || c ∈ ['/', '%', '\\']

def upperHex (n : Nat) : Char := if n < 10 then .ofNat ('0'.toNat + n) else .ofNat ('A'.toNat + n - 10)

def encodeByte (b : UInt8) : List Char := ['%', upperHex (b.toNat / 16), upperHex (b.toNat % 16)]

def encodeChar (encoded : Char → Bool) (c : Char) : List Char :=
  if encoded c then (Text.bytes [c]).flatMap encodeByte else [c]

def encode (encoded : Char → Bool) (s : List Char) : List Char := s.flatMap (encodeChar encoded)

def hexValue (c : Char) : Option Nat :=
  if c.isDigit then some (c.toNat - '0'.toNat)
  else if 'a' ≤ c && c ≤ 'f' then some (c.toNat - 'a'.toNat + 10)
  else if 'A' ≤ c && c ≤ 'F' then some (c.toNat - 'A'.toNat + 10)
  else none

-- The bytes that a text stands for: a percent sign without two hexadecimal digits is itself.
def decodeBytes : List Char → List UInt8
  | '%' :: a :: b :: r =>
    match hexValue a, hexValue b with
    | some x, some y => .ofNat (x * 16 + y) :: decodeBytes r
    | _, _ => Text.bytes ['%'] ++ decodeBytes (a :: b :: r)
  | c :: r => Text.bytes [c] ++ decodeBytes r
  | [] => []
termination_by s => s.length

def decode? (s : List Char) : Option (List Char) :=
  (String.fromUTF8? ⟨(decodeBytes s).toArray⟩).map (·.toList)

end DarkDrop.Url
