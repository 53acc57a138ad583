import DarkDrop.Url.Percent

namespace DarkDrop.Url.Punycode

def digitChar (d : Nat) : Char :=
  if d < 26 then .ofNat ('a'.toNat + d) else .ofNat ('0'.toNat + d - 26)

def digitValue (c : Char) : Option Nat :=
  if c.isLower then some (c.toNat - 'a'.toNat)
  else if c.isDigit then some (c.toNat - '0'.toNat + 26)
  else none

def threshold (k bias : Nat) : Nat := min 26 (max 1 (k - bias))

def reduce (delta k : Nat) : Nat × Nat :=
  if 455 < delta then reduce (delta / 35) (k + 36) else (delta, k)
termination_by delta
decreasing_by omega

def adapt (delta points : Nat) (first : Bool) : Nat :=
  let d := if first then delta / 700 else delta / 2
  let (d, k) := reduce (d + d / points) 0
  k + 36 * d / (d + 38)

def number (bias k q : Nat) : List Char :=
  let t := threshold k bias
  if q < t then [digitChar q]
  else digitChar (t + (q - t) % (36 - t)) :: number bias (k + 36) ((q - t) / (36 - t))
termination_by q
decreasing_by
  have h1 : 1 ≤ threshold k bias := by unfold threshold; omega
  have h2 := Nat.div_le_self (q - threshold k bias) (36 - threshold k bias)
  omega

structure State where
  out : List Char
  delta : Nat
  bias : Nat
  handled : Nat

def pass (basic m : Nat) (st : State) (c : Char) : State :=
  if c.toNat < m then { st with delta := st.delta + 1 }
  else if c.toNat = m then
    { out := st.out ++ number st.bias 36 st.delta
      delta := 0
      bias := adapt st.delta (st.handled + 1) (st.handled == basic)
      handled := st.handled + 1 }
  else st

def rounds (s : List Char) (basic : Nat) : List Nat → Nat → State → State
  | [], _, st => st
  | m :: ms, n, st =>
    let st := s.foldl (pass basic m) { st with delta := st.delta + (m - n) * (st.handled + 1) }
    rounds s basic ms (m + 1) { st with delta := st.delta + 1 }

def encode (s : List Char) : List Char :=
  let basic := s.filter (·.toNat < 0x80)
  let points := (((s.map Char.toNat).filter (0x80 ≤ ·)).mergeSort).eraseDups
  let st := rounds s basic.length points 0x80 ⟨[], 0, 72, basic.length⟩
  (if basic.isEmpty then [] else basic ++ ['-']) ++ st.out

def readNumber (bias : Nat) : (k weight acc : Nat) → List Char → Option (Nat × List Char)
  | _, _, _, [] => none
  | k, weight, acc, c :: r => do
    let d ← digitValue c
    let t := threshold k bias
    let acc := acc + d * weight
    if d < t then some (acc, r) else readNumber bias (k + 36) (weight * (36 - t)) acc r

theorem readNumber_shorter {bias k w a s n r} (h : readNumber bias k w a s = some (n, r)) :
    r.length < s.length := by
  induction s generalizing k w a with
  | nil => simp [readNumber] at h
  | cons c s ih =>
    unfold readNumber at h
    cases hd : digitValue c with
    | none => simp [hd] at h
    | some d =>
      simp only [hd, Option.bind_eq_bind, Option.bind_some] at h
      split at h
      · cases h
        simp
      · have := ih h
        simp only [List.length_cons]
        omega

def insertions (s : List Char) (n i bias : Nat) (out : List Char) : Option (List Char) :=
  match s with
  | [] => some out
  | c :: r =>
    match h : readNumber bias 36 1 0 (c :: r) with
    | none => none
    | some (d, r') =>
      have := readNumber_shorter h
      let len := out.length + 1
      let n := n + (i + d) / len
      let i' := (i + d) % len
      if 0x10ffff < n || (0xd800 ≤ n && n ≤ 0xdfff) then none
      else insertions r' n (i' + 1) (adapt d len (i == 0)) (out.insertIdx i' (.ofNat n))
termination_by s.length
decreasing_by exact readNumber_shorter h

def decode (s : List Char) : Option (List Char) :=
  let basic := (s.reverse.dropWhile (· != '-')).drop 1 |>.reverse
  let rest := (s.reverse.takeWhile (· != '-')).reverse
  insertions rest 0x80 0 72 basic

end DarkDrop.Url.Punycode
