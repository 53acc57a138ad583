import DarkDrop.Json.Fault

namespace DarkDrop.Json

def isSpace (c : Char) : Bool := c == ' ' || c == '\t' || c == '\n' || c == '\r'
def skipSpace (s : List Char) : List Char := s.dropWhile isSpace

def word : List Char → List Char → Except Fault (List Char)
  | [], s => .ok s
  | _ :: _, [] => .error ⟨.endInValue, 0⟩
  | w :: ws, c :: s => if c = w then word ws s else .error (.within .wordExpected (c :: s))

def hexValue (c : Char) : Option Nat :=
  if c.isDigit then some (c.toNat - '0'.toNat)
  else if 'a' ≤ c && c ≤ 'f' then some (c.toNat - 'a'.toNat + 10)
  else if 'A' ≤ c && c ≤ 'F' then some (c.toNat - 'A'.toNat + 10)
  else none

def fourHex : List Char → Option (Nat × List Char)
  | a :: b :: c :: d :: r =>
    match hexValue a, hexValue b, hexValue c, hexValue d with
    | some w, some x, some y, some z => some (((w * 16 + x) * 16 + y) * 16 + z, r)
    | _, _, _, _ => none
  | _ => none

-- A code unit in four hexadecimal digits. Four bytes are taken before they are looked at.
def codeUnit (s : List Char) : Except Fault (Nat × List Char) :=
  match fourHex s with
  | some p => .ok p
  | none =>
    if Text.size (s.take 4) < 4 then .error ⟨.endInString, 0⟩
    else .error ⟨.badEscape, Text.size s - 4⟩

def secondUnit : List Char → Except Fault (Nat × List Char)
  | [] => .error ⟨.endInString, 0⟩
  | '\\' :: [] => .error ⟨.endInString, 0⟩
  | '\\' :: 'u' :: r =>
    match codeUnit r with
    | .error e => .error e
    | .ok (u, r') =>
      if 0xdc00 ≤ u && u ≤ 0xdfff then .ok (u, r') else .error (.before .loneSurrogate r')
  | '\\' :: r => .error (.within .splitSurrogate r)
  | r => .error (.within .splitSurrogate r)

def unicodeEscape (s : List Char) : Except Fault (Char × List Char) :=
  match codeUnit s with
  | .error e => .error e
  | .ok (u, r) =>
    if 0xdc00 ≤ u && u ≤ 0xdfff then .error (.before .loneSurrogate r)
    else if 0xd800 ≤ u && u ≤ 0xdbff then
      match secondUnit r with
      | .error e => .error e
      | .ok (v, r') => .ok (.ofNat ((u - 0xd800) * 0x400 + (v - 0xdc00) + 0x10000), r')
    else .ok (.ofNat u, r)

def letterEscape : Char → Option Char
  | '"' => some '"'
  | '\\' => some '\\'
  | '/' => some '/'
  | 'b' => some '\x08'
  | 'f' => some '\x0c'
  | 'n' => some '\n'
  | 'r' => some '\r'
  | 't' => some '\t'
  | _ => none

def escape : List Char → Except Fault (Char × List Char)
  | [] => .error ⟨.endInString, 0⟩
  | c :: r =>
    if c = 'u' then unicodeEscape r
    else match letterEscape c with
      | some d => .ok (d, r)
      | none => .error (.within .badEscape (c :: r))

def skipEscape : List Char → Except Fault (List Char)
  | [] => .error ⟨.endInString, 0⟩
  | c :: r =>
    if c = 'u' then (codeUnit r).map (·.2)
    else match letterEscape c with
      | some _ => .ok r
      | none => .error (.within .badEscape (c :: r))

theorem codeUnit_shorter {s : List Char} {u r} (h : codeUnit s = .ok (u, r)) :
    r.length < s.length := by
  unfold codeUnit at h
  split at h
  · rename_i hp
    cases h
    unfold fourHex at hp
    split at hp
    · split at hp
      · cases hp
        simp only [List.length_cons]
        omega
      · cases hp
    · cases hp
  · split at h <;> cases h

theorem secondUnit_shorter {s : List Char} {u r} (h : secondUnit s = .ok (u, r)) :
    r.length < s.length := by
  unfold secondUnit at h
  split at h
  · cases h
  · cases h
  · split at h
    · cases h
    · rename_i hu
      have := codeUnit_shorter hu
      split at h
      · cases h
        simp only [List.length_cons]
        omega
      · cases h
  · cases h
  · cases h

theorem unicodeEscape_shorter {s : List Char} {c r} (h : unicodeEscape s = .ok (c, r)) :
    r.length < s.length := by
  unfold unicodeEscape at h
  split at h
  · cases h
  · rename_i hu
    have := codeUnit_shorter hu
    split at h
    · cases h
    · split at h
      · split at h
        · cases h
        · rename_i hv
          have := secondUnit_shorter hv
          obtain ⟨-, rfl⟩ := Prod.mk.inj (Except.ok.inj h)
          omega
      · obtain ⟨-, rfl⟩ := Prod.mk.inj (Except.ok.inj h)
        omega

theorem escape_shorter {s : List Char} {c r} (h : escape s = .ok (c, r)) : r.length < s.length := by
  unfold escape at h
  split at h
  · cases h
  · split at h
    · have := unicodeEscape_shorter h
      simp only [List.length_cons]
      omega
    · split at h
      · cases h
        simp
      · cases h

theorem skipEscape_shorter {s r : List Char} (h : skipEscape s = .ok r) : r.length < s.length := by
  unfold skipEscape at h
  split at h
  · cases h
  · split at h
    · cases hu : codeUnit _ with
      | error e => rw [hu] at h; cases h
      | ok p =>
        rw [hu] at h
        cases h
        have := codeUnit_shorter (u := p.1) (r := p.2) hu
        simp only [List.length_cons]
        omega
    · split at h
      · cases h
        simp
      · cases h

def stringBody : List Char → Except Fault (List Char × List Char)
  | [] => .error ⟨.endInString, 0⟩
  | c :: s =>
    if c = '"' then .ok ([], s)
    else if c = '\\' then
      match h : escape s with
      | .error e => .error e
      | .ok (d, r) =>
        have := escape_shorter h
        match stringBody r with
        | .error e => .error e
        | .ok (t, r') => .ok (d :: t, r')
    else if c.toNat < 0x20 then .error (.within .control (c :: s))
    else
      match stringBody s with
      | .error e => .error e
      | .ok (t, r) => .ok (c :: t, r)
termination_by s => s.length

-- A string whose text nobody wants: a control character is found before it is read.
def skipString : List Char → Except Fault (List Char)
  | [] => .error ⟨.endInString, 0⟩
  | c :: s =>
    if c = '"' then .ok s
    else if c = '\\' then
      match h : skipEscape s with
      | .error e => .error e
      | .ok r =>
        have := skipEscape_shorter h
        skipString r
    else if c.toNat < 0x20 then .error (.before .control (c :: s))
    else skipString s
termination_by s => s.length

structure Numeral where
  negative : Bool
  whole : List Char
  fraction : List Char
  exponent : Option (Bool × List Char)
deriving DecidableEq, Repr

def someDigits (eof bad : Fault) (s : List Char) : Except Fault (List Char × List Char) :=
  match s with
  | [] => .error eof
  | c :: _ => if c.isDigit then .ok (s.takeWhile Char.isDigit, s.dropWhile Char.isDigit) else .error bad

def wholeDigits (eof : Fault) (s : List Char) : Except Fault (List Char × List Char) :=
  match s with
  | '0' :: c :: r => if c.isDigit then .error (.within .badNumber (c :: r)) else .ok (['0'], c :: r)
  | _ => someDigits eof (.within .badNumber s) s

def fractionDigits (eof : Fault) (s : List Char) : Except Fault (List Char × List Char) :=
  match s with
  | '.' :: r => someDigits eof (.within .badNumber r) r
  | _ => .ok ([], s)

def exponentSign : List Char → Bool × List Char
  | '+' :: r => (true, r)
  | '-' :: r => (false, r)
  | r => (true, r)

def exponentDigits (eof : Fault) (s : List Char) :
    Except Fault (Option (Bool × List Char) × List Char) :=
  match s with
  | c :: r =>
    if c = 'e' || c = 'E' then
      let (up, r) := exponentSign r
      (someDigits eof (.within .badNumber r) r).map fun p => (some (up, p.1), p.2)
    else .ok (none, s)
  | [] => .ok (none, [])

def numeral (eof : Fault) (negative : Bool) (s : List Char) : Except Fault (Numeral × List Char) := do
  let (whole, s) ← wholeDigits eof s
  let (fraction, s) ← fractionDigits eof s
  let (exponent, s) ← exponentDigits eof s
  return (⟨negative, whole, fraction, exponent⟩, s)

-- The digits of a numeral in 64 bits, and the power of ten they count: digits before the point
-- that no longer fit raise it, digits behind the point that fit lower it, others are dropped.
def Numeral.significand (n : Numeral) : Nat × Int :=
  let (m, beyond) := Text.takeUpTo Text.wordLimit 0 n.whole
  let (m, cut) := Text.takeUpTo Text.wordLimit m n.fraction
  (m, (beyond.length : Int) - (n.fraction.length - cut.length : Nat))

def Numeral.isWhole (n : Numeral) : Bool :=
  n.fraction.isEmpty && n.exponent.isNone && (Text.takeUpTo Text.wordLimit 0 n.whole).2.isEmpty

def scaled (negative : Bool) (m : Nat) (e : Int) : Except Nat Number :=
  match (Binary64.nearest m 1).bind (·.scale10 e) with
  | some x => .ok (.real negative x)
  | none => .error 0

-- The number that a numeral stands for. An exponent beyond 31 bits is refused as soon as it is,
-- with the rest of its digits unread.
def Numeral.number (n : Numeral) : Except Nat Number :=
  let (m, e) := n.significand
  match n.exponent with
  | none =>
    if ! n.isWhole then scaled n.negative m e
    else if ! n.negative then .ok (.whole (.ofNat m))
    else if m = 0 || 0x8000000000000000 < m then scaled true m 0
    else .ok (.minus (.ofNat m))
  | some (up, ds) =>
    let (k, unread) := Text.takeUpTo 0x7fffffff 0 ds
    if unread.isEmpty then scaled n.negative m (if up then e + k else e - k)
    else if up && m != 0 then .error (unread.length - 1)
    else .ok (.real n.negative .zero)

def number (negative : Bool) (s : List Char) : Except Fault (Number × List Char) :=
  match numeral ⟨.endInValue, 0⟩ negative s with
  | .error e => .error e
  | .ok (n, r) =>
    match n.number with
    | .ok x => .ok (x, r)
    | .error unread => .error ⟨.outOfRange, Text.size r + unread⟩

def skipNumber (s : List Char) : Except Fault (List Char) :=
  (numeral ⟨.badNumber, 0⟩ false s).map (·.2)

end DarkDrop.Json
