import DarkDrop.Text.Utf8

namespace DarkDrop.Text

def byteOffset : List Char → Nat → Nat
  | c :: r, n + 1 => c.utf8Size + byteOffset r n
  | _, _ => 0

def cutAtByte : List Char → Nat → Option (List Char × List Char)
  | s, 0 => some ([], s)
  | [], _ + 1 => none
  | c :: r, n + 1 =>
    if c.utf8Size ≤ n + 1 then (cutAtByte r (n + 1 - c.utf8Size)).map fun (l, r) => (c :: l, r)
    else none

def insertAt (s : List Char) (offset : Nat) (c : Char) : Option (List Char) :=
  (cutAtByte s offset).map fun (l, r) => l ++ c :: r

def removeAt (s : List Char) (offset : Nat) : Option (List Char) :=
  match cutAtByte s offset with
  | some (l, _ :: r) => some (l ++ r)
  | _ => none

end DarkDrop.Text
