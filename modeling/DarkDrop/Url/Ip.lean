import DarkDrop.Text.Split
import DarkDrop.Url.Percent

namespace DarkDrop.Url

def valueIn (base : Nat) (s : List Char) : Nat := s.foldl (fun n c => n * base + (hexValue c).getD 0) 0

def ipv4Number (s : List Char) : Option Nat :=
  let (base, ds) := match s with
    | '0' :: x :: r => if x = 'x' || x = 'X' then (16, r) else (8, x :: r)
    | r => (10, r)
  if s.isEmpty then none
  else if ds.all fun c => (hexValue c).any (· < base) then some (valueIn base ds)
  else none

def endsInNumber (s : List Char) : Bool :=
  let last := match (Text.splitAt '.' s).reverse with
    | [] :: p :: _ => p
    | p :: _ => p
    | [] => []
  ! last.isEmpty && (last.all Char.isDigit || (ipv4Number last).isSome)

-- Up to four numbers: the last one fills the bytes that the others leave.
def ipv4? (s : List Char) : Option Nat := do
  let parts := Text.splitAt '.' s
  let parts := if parts.getLast? = some [] then parts.dropLast else parts
  let numbers ← parts.mapM ipv4Number
  let last ← numbers.getLast?
  let bytes := numbers.dropLast
  if 4 < numbers.length || bytes.any (255 < ·) || Nat.pow 256 (4 - bytes.length) ≤ last then none
  else some (bytes.zipIdx.foldl (fun n b => n + b.1 * Nat.pow 256 (3 - b.2)) last)

def ipv4Text (a : Nat) : List Char :=
  Text.joinWith ['.'] ([3, 2, 1, 0].map fun k => Nat.toDigits 10 (a / Nat.pow 256 k % 256))

def ipv6Piece (s : List Char) : Option Nat :=
  if s.isEmpty || 4 < s.length || ! s.all fun c => (hexValue c).isSome then none
  else some (valueIn 16 s)

def dottedByte (s : List Char) : Option Nat :=
  if s.isEmpty || ! s.all Char.isDigit || (1 < s.length && s.head? = some '0') then none
  else if 255 < valueIn 10 s then none
  else some (valueIn 10 s)

def ipv6Tail (s : List Char) : Option (List Nat) :=
  if s.contains '.' then do
    match ← (Text.splitAt '.' s).mapM dottedByte with
    | [a, b, c, d] => some [a * 256 + b, c * 256 + d]
    | _ => none
  else (ipv6Piece s).map ([·])

def ipv6Pieces (dotted : Bool) (s : List Char) : Option (List Nat) :=
  if s.isEmpty then some []
  else do
    let parts := Text.splitAt ':' s
    let front ← parts.dropLast.mapM ipv6Piece
    let last := parts.getLast?.getD []
    return front ++ (← if dotted then ipv6Tail last else (ipv6Piece last).map ([·]))

def cutAtPair : List Char → Option (List Char × List Char)
  | ':' :: ':' :: r => some ([], r)
  | c :: r => (cutAtPair r).map fun p => (c :: p.1, p.2)
  | [] => none

def ipv6? (s : List Char) : Option (List Nat) :=
  match cutAtPair s with
  | none => (ipv6Pieces true s).bind fun ps => if ps.length = 8 then some ps else none
  | some (front, back) => do
    let a ← ipv6Pieces false front
    let b ← ipv6Pieces true back
    if 7 < a.length + b.length then none
    else some (a ++ List.replicate (8 - a.length - b.length) 0 ++ b)

def zeroRuns : List Nat → List Nat
  | [] => []
  | p :: ps =>
    let rs := zeroRuns ps
    (if p = 0 then rs.headD 0 + 1 else 0) :: rs

def longestZeros (ps : List Nat) : Option (Nat × Nat) :=
  let rs := zeroRuns ps
  let most := rs.foldl max 0
  if most < 2 then none else some (rs.idxOf most, most)

def ipv6Text (ps : List Nat) : List Char :=
  let pieces (l : List Nat) := Text.joinWith [':'] (l.map (Nat.toDigits 16))
  match longestZeros ps with
  | none => pieces ps
  | some (start, n) => pieces (ps.take start) ++ [':', ':'] ++ pieces (ps.drop (start + n))

end DarkDrop.Url
