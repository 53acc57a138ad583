namespace DarkDrop

structure Binary64 where
  significand : Nat
  exponent : Int
deriving DecidableEq, Repr

namespace Binary64

def zero : Binary64 := ⟨0, -1074⟩

def roundEven (num den : Nat) : Nat :=
  let q := num / den
  let r := num % den
  if 2 * r < den then q else if den < 2 * r then q + 1 else q + q % 2

def floorLog2 (num den : Nat) : Int :=
  let e : Int := (num.log2 : Int) - den.log2
  if num * Nat.pow 2 (-e).toNat < den * Nat.pow 2 e.toNat then e - 1 else e

def nearest (num den : Nat) : Option Binary64 :=
  if num = 0 then some zero
  else
    let q : Int := max (floorLog2 num den - 52) (-1074)
    let m := roundEven (num * Nat.pow 2 (-q).toNat) (den * Nat.pow 2 q.toNat)
    let x : Binary64 := if m = 0x20000000000000 then ⟨0x10000000000000, q + 1⟩ else ⟨m, q⟩
    if 971 < x.exponent then none else some x

def num (x : Binary64) : Nat := x.significand * Nat.pow 2 x.exponent.toNat
def den (x : Binary64) : Nat := Nat.pow 2 (-x.exponent).toNat

def mul (x y : Binary64) : Option Binary64 := nearest (x.num * y.num) (x.den * y.den)
def div (x y : Binary64) : Option Binary64 := nearest (x.num * y.den) (x.den * y.num)

def pow10 (k : Nat) : Option Binary64 := nearest (Nat.pow 10 k) 1

def divPow10 (x : Binary64) (k : Nat) : Option Binary64 := (pow10 k).bind x.div

def lower (x : Binary64) : Nat → Option Binary64
  | 0 => some x
  | n + 1 => if x.significand = 0 then some x else (x.divPow10 308).bind (lower · n)

-- `x` times ten to the `e`, each step rounded: up in one step, down in steps of at most 308.
def scale10 (x : Binary64) (e : Int) : Option Binary64 :=
  if x.significand = 0 then some x
  else if 308 < e then none
  else if 0 ≤ e then (pow10 e.toNat).bind x.mul
  else
    let steps := ((-e).toNat - 1) / 308
    (x.lower steps).bind (·.divPow10 ((-e).toNat - 308 * steps))

-- Whether the decimal `d * 10 ^ k` rounds to the number: the ends of the interval belong to it
-- when the significand is even, and below a power of two the interval is half as wide.
def holds (x : Binary64) (d : Nat) (k : Int) : Bool :=
  let narrow := x.significand = 0x10000000000000 && -1074 < x.exponent
  let low := if narrow then 4 * x.significand - 1 else 4 * x.significand - 2
  let high := 4 * x.significand + 2
  let q := x.exponent - 2
  let scaled (n : Nat) := n * Nat.pow 2 q.toNat * Nat.pow 10 (-k).toNat
  let target := d * Nat.pow 10 k.toNat * Nat.pow 2 (-q).toNat
  if x.significand % 2 = 0 then scaled low ≤ target && target ≤ scaled high
  else scaled low < target && target < scaled high

def floorLog10 (num den : Nat) : Int :=
  if den ≤ num then (Nat.toDigits 10 (num / den)).length - 1
  else
    match (List.range 400).find? fun j => den ≤ num * Nat.pow 10 (j + 1) with
    | some j => -(j + 1 : Int)
    | none => -400

-- With `n` digits: the neighbour of the number on that decimal grid which rounds to it, the nearer
-- one if both do.
def withDigits (x : Binary64) (n : Nat) : Option (Nat × Int) :=
  let k := floorLog10 x.num x.den - (n - 1 : Nat)
  let num := x.num * Nat.pow 10 (-k).toNat
  let den := x.den * Nat.pow 10 k.toNat
  let below := num / den
  let first := if 2 * (num % den) < den || 2 * (num % den) = den && below % 2 = 0 then below else below + 1
  let second := 2 * below + 1 - first
  if x.holds first k then some (first, k) else if x.holds second k then some (second, k) else none

def shortest (x : Binary64) : Nat × Int :=
  ((List.range 17).findSome? fun n => x.withDigits (n + 1)).getD (0, 0)

end Binary64
end DarkDrop
