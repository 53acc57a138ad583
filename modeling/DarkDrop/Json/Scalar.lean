import DarkDrop.Binary64
import DarkDrop.Text.Digits
import DarkDrop.Text.Quoted

namespace DarkDrop.Json

inductive Number where
  | whole (n : UInt64)
  | minus (n : UInt64)
  | real (negative : Bool) (magnitude : Binary64)
deriving DecidableEq, Repr

inductive Scalar where
  | null
  | bool (b : Bool)
  | number (n : Number)
  | text (s : String)
deriving DecidableEq, Repr

-- How a real number is written: positional while the exponent of its first digit is in this range,
-- with at least one digit on each side of the point.
def leastPositional : Int := -5
def greatestPositional : Int := 15

def realDigits (ds : List Char) (k : Int) : List Char :=
  let e := k + (ds.length - 1 : Nat)
  if leastPositional ≤ e && e ≤ greatestPositional then
    if 0 ≤ k then ds ++ List.replicate k.toNat '0' ++ ['.', '0']
    else if 0 ≤ e then ds.take (e.toNat + 1) ++ '.' :: ds.drop (e.toNat + 1)
    else '0' :: '.' :: List.replicate ((-e).toNat - 1) '0' ++ ds
  else
    let mantissa := match ds with
      | d :: e :: r => d :: '.' :: e :: r
      | r => r
    mantissa ++ 'e' :: (if e < 0 then '-' else '+') :: Text.digits e.natAbs

def significantDigits (d : Nat) (k : Int) : List Char × Int :=
  let ds := Text.digits d
  let kept := (ds.reverse.dropWhile (· == '0')).reverse
  (kept, k + (ds.length - kept.length : Nat))

def realText (x : Binary64) : List Char :=
  if x.significand = 0 then ['0', '.', '0']
  else
    let (d, k) := x.shortest
    let (ds, k) := significantDigits d k
    realDigits ds k

def Number.text : Number → List Char
  | .whole n => Text.digits n.toNat
  | .minus n => '-' :: Text.digits n.toNat
  | .real negative x => if negative then '-' :: realText x else realText x

def Number.describe : Number → String
  | .real negative x => "floating point `" ++ .ofList (Number.real negative x).text ++ "`"
  | n => "integer `" ++ .ofList n.text ++ "`"

def Scalar.describe : Scalar → String
  | .null => "null"
  | .bool b => "boolean `" ++ (if b then "true" else "false") ++ "`"
  | .number n => n.describe
  | .text s => "string " ++ Text.quoted s

end DarkDrop.Json
