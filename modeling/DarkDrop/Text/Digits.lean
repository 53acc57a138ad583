namespace DarkDrop.Text

def digitValue (c : Char) : Nat := c.toNat - '0'.toNat

def digits (n : Nat) : List Char := Nat.toDigits 10 n

def valueFrom (acc : Nat) (ds : List Char) : Nat := ds.foldl (fun n d => n * 10 + digitValue d) acc
def value (ds : List Char) : Nat := valueFrom 0 ds

def takeUpTo (limit : Nat) : Nat → List Char → Nat × List Char
  | acc, [] => (acc, [])
  | acc, d :: ds =>
    if limit < acc * 10 + digitValue d then (acc, d :: ds)
    else takeUpTo limit (acc * 10 + digitValue d) ds

def wordLimit : Nat := 0xffffffffffffffff

def readCount (s : List Char) : Option UInt64 :=
  let ds := match s with
    | '+' :: r => r
    | r => r
  if ds.isEmpty || ! ds.all Char.isDigit then none
  else if value ds ≤ wordLimit then some (.ofNat (value ds))
  else none

end DarkDrop.Text
