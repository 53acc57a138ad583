import DarkDrop.Json.Any

namespace DarkDrop.Text

theorem value_from_le (acc : Nat) (ds : List Char) : acc ≤ valueFrom acc ds := by
  induction ds generalizing acc with
  | nil => exact Nat.le_refl acc
  | cons d ds ih =>
      have later := ih (acc * 10 + digitValue d)
      change acc ≤ valueFrom (acc * 10 + digitValue d) ds
      omega

theorem take_up_to_all (limit acc : Nat) (ds : List Char) (fits : valueFrom acc ds ≤ limit) :
    takeUpTo limit acc ds = (valueFrom acc ds, []) := by
  induction ds generalizing acc with
  | nil => rfl
  | cons d ds ih =>
      change valueFrom (acc * 10 + digitValue d) ds ≤ limit at fits
      have step := value_from_le (acc * 10 + digitValue d) ds
      rw [takeUpTo, if_neg (by omega)]
      exact ih _ fits

theorem value_decimal (ds : List Char) : value ds = Nat.ofDigitChars 10 ds 0 := by
  unfold value valueFrom Nat.ofDigitChars
  congr 1
  funext m d
  rw [Nat.mul_comm, digitValue]

theorem value_digits (n : Nat) : value (digits n) = n := by
  rw [value_decimal, digits, Nat.ofDigitChars_ten_toDigits]

theorem digits_digit (n : Nat) (d : Char) (member : d ∈ digits n) : d.isDigit = true :=
  Nat.isDigit_of_mem_toDigits (by decide) (by decide) member

theorem digits_head (n : Nat) (positive : 0 < n) :
    ∃ d ds, digits n = d :: ds ∧ d.isDigit = true ∧ d ≠ '0' := by
  induction n using Nat.strongRecOn with
  | ind n ih =>
      by_cases small : n < 10
      · have only : digits n = [n.digitChar] := Nat.toDigits_of_lt_base small
        refine ⟨n.digitChar, [], only, digits_digit n _ (by simp [only]), fun zero => ?_⟩
        have code := Nat.toNat_digitChar_of_lt_ten small
        rw [zero] at code
        change 48 = 48 + n at code
        omega
      · have split : digits n = digits (n / 10) ++ [(n % 10).digitChar] :=
          Nat.toDigits_of_base_le (by decide) (by omega)
        obtain ⟨d, ds, head, digit, nonzero⟩ := ih (n / 10) (by omega) (by omega)
        exact ⟨d, ds ++ [(n % 10).digitChar], by simp [split, head], digit, nonzero⟩

end DarkDrop.Text

namespace DarkDrop.Json
open Text

def Stops : List Char → Prop
  | [] => True
  | c :: _ => c = ',' ∨ c = ']' ∨ c = '}'

theorem digits_span (ds rest : List Char) (digit : ∀ d ∈ ds, d.isDigit = true) (stops : Stops rest) :
    (ds ++ rest).takeWhile Char.isDigit = ds ∧ (ds ++ rest).dropWhile Char.isDigit = rest := by
  have none : rest.takeWhile Char.isDigit = [] ∧ rest.dropWhile Char.isDigit = rest := by
    cases rest with
    | nil => exact ⟨rfl, rfl⟩
    | cons c rest => rcases stops with rfl | rfl | rfl <;> exact ⟨rfl, rfl⟩
  rw [List.takeWhile_append_of_pos digit, List.dropWhile_append_of_pos digit, none.1, none.2]
  exact ⟨List.append_nil ds, rfl⟩

theorem some_digits_written (eof bad : Fault) (d : Char) (ds rest : List Char)
    (digit : ∀ c ∈ d :: ds, c.isDigit = true) (stops : Stops rest) :
    someDigits eof bad (d :: ds ++ rest) = .ok (d :: ds, rest) := by
  obtain ⟨taken, left⟩ := digits_span (d :: ds) rest digit stops
  rw [List.cons_append] at taken left ⊢
  rw [someDigits, if_pos (digit d (by simp)), taken, left]

theorem whole_digits_written (eof : Fault) (n : Nat) (rest : List Char) (stops : Stops rest) :
    wholeDigits eof (digits n ++ rest) = .ok (digits n, rest) := by
  by_cases positive : 0 < n
  · obtain ⟨d, ds, head, digit, nonzero⟩ := digits_head n positive
    have all := digits_digit n
    rw [head] at all ⊢
    rw [wholeDigits.eq_def]
    split
    · rename_i same
      exact absurd (List.cons.inj same).1 nonzero
    · exact some_digits_written _ _ d ds rest all stops
  · have zero : n = 0 := by omega
    subst zero
    change wholeDigits eof ('0' :: rest) = .ok (['0'], rest)
    cases rest with
    | nil => rfl
    | cons c rest => rcases stops with rfl | rfl | rfl <;> rfl

theorem numeral_written (eof : Fault) (negative : Bool) (n : Nat) (rest : List Char)
    (stops : Stops rest) :
    numeral eof negative (digits n ++ rest) = .ok (⟨negative, digits n, [], none⟩, rest) := by
  have fraction : fractionDigits eof rest = .ok ([], rest) := by
    cases rest with
    | nil => rfl
    | cons c rest => rcases stops with rfl | rfl | rfl <;> rfl
  have exponent : exponentDigits eof rest = .ok (none, rest) := by
    cases rest with
    | nil => rfl
    | cons c rest => rcases stops with rfl | rfl | rfl <;> rfl
  rw [numeral, whole_digits_written eof n rest stops]
  change (fractionDigits eof rest >>= _) = _
  rw [fraction]
  change (exponentDigits eof rest >>= _) = _
  rw [exponent]
  rfl

theorem number_written (n : UInt64) (rest : List Char) (stops : Stops rest) :
    number false (digits n.toNat ++ rest) = .ok (.whole n, rest) := by
  have taken : takeUpTo wordLimit 0 (digits n.toNat) = (n.toNat, []) := by
    have fits : value (digits n.toNat) ≤ wordLimit := by
      rw [value_digits]
      exact Nat.le_of_lt_succ n.toNat_lt
    have all := take_up_to_all wordLimit 0 (digits n.toNat) fits
    rwa [← value, value_digits] at all
  have whole : Numeral.number ⟨false, digits n.toNat, [], none⟩ = .ok (.whole n) := by
    simp [Numeral.number, Numeral.significand, Numeral.isWhole, taken, takeUpTo]
  rw [number, numeral_written _ _ _ _ stops]
  simp only [whole]

theorem hex_value_digit (n : Nat) (small : n < 16) : hexValue (hexDigit n) = some n := by
  have all : ∀ k : Fin 16, hexValue (hexDigit k) = some k.val := by decide
  exact all ⟨n, small⟩

theorem body_escape (s rest left t : List Char) (d : Char) (read : escape s = .ok (d, rest))
    (body : stringBody rest = .ok (t, left)) : stringBody ('\\' :: s) = .ok (d :: t, left) := by
  rw [stringBody, if_neg (by decide), if_pos rfl]
  split
  · rename_i failed
    rw [read] at failed
    cases failed
  · rename_i d' rest' taken
    rw [read] at taken
    cases taken
    simp only [body]

theorem body_plain (c : Char) (s left t : List Char) (quote : c ≠ '"') (slash : c ≠ '\\')
    (visible : ¬ c.toNat < 0x20) (body : stringBody s = .ok (t, left)) :
    stringBody (c :: s) = .ok (c :: t, left) := by
  rw [stringBody, if_neg quote, if_neg slash, if_neg visible]
  simp only [body]

theorem control_escape (c : Char) (rest : List Char) (control : c.toNat < 0x20) :
    escape ('u' :: '0' :: '0' :: hexDigit (c.toNat / 16) :: hexDigit (c.toNat % 16) :: rest) =
      .ok (c, rest) := by
  have zero : hexValue '0' = some 0 := by decide
  have high := hex_value_digit (c.toNat / 16) (by omega)
  have low := hex_value_digit (c.toNat % 16) (by omega)
  have sum : c.toNat / 16 * 16 + c.toNat % 16 = c.toNat := by omega
  have unit : codeUnit ('0' :: '0' :: hexDigit (c.toNat / 16) :: hexDigit (c.toNat % 16) :: rest) =
      .ok (c.toNat, rest) := by
    simp only [codeUnit, fourHex, zero, high, low, Nat.zero_mul, Nat.zero_add, sum]
  have below : (0xdc00 ≤ c.toNat && c.toNat ≤ 0xdfff) = false ∧
      (0xd800 ≤ c.toNat && c.toNat ≤ 0xdbff) = false := by
    constructor <;> simp <;> omega
  rw [escape, if_pos rfl, unicodeEscape]
  simp only [unit, below, Bool.false_eq_true, if_false, Char.ofNat_toNat]

theorem written_char_body (c : Char) (rest left t : List Char)
    (body : stringBody rest = .ok (t, left)) :
    stringBody (writtenChar c ++ rest) = .ok (c :: t, left) := by
  have letter (e d : Char) (other : e ≠ 'u') (known : letterEscape e = some d) :
      stringBody ('\\' :: e :: rest) = .ok (d :: t, left) := by
    apply body_escape (e :: rest) rest left t d _ body
    rw [escape, if_neg other, known]
  -- One case for each branch of the writer, in its order.
  rw [writtenChar]
  by_cases quote : c = '"'
  · rw [if_pos quote, quote]
    exact letter '"' '"' (by decide) rfl
  rw [if_neg quote]
  by_cases slash : c = '\\'
  · rw [if_pos slash, slash]
    exact letter '\\' '\\' (by decide) rfl
  rw [if_neg slash]
  by_cases back : c = '\x08'
  · rw [if_pos back, back]
    exact letter 'b' '\x08' (by decide) rfl
  rw [if_neg back]
  by_cases feed : c = '\x0c'
  · rw [if_pos feed, feed]
    exact letter 'f' '\x0c' (by decide) rfl
  rw [if_neg feed]
  by_cases line : c = '\n'
  · rw [if_pos line, line]
    exact letter 'n' '\n' (by decide) rfl
  rw [if_neg line]
  by_cases start : c = '\r'
  · rw [if_pos start, start]
    exact letter 'r' '\r' (by decide) rfl
  rw [if_neg start]
  by_cases tab : c = '\t'
  · rw [if_pos tab, tab]
    exact letter 't' '\t' (by decide) rfl
  rw [if_neg tab]
  by_cases control : c.toNat < 0x20
  · rw [if_pos control]
    exact body_escape _ rest left t c (control_escape c rest control) body
  · rw [if_neg control]
    exact body_plain c rest left t quote slash control body

theorem written_body (cs rest : List Char) :
    stringBody (cs.flatMap writtenChar ++ '"' :: rest) = .ok (cs, rest) := by
  induction cs with
  | nil =>
      rw [List.flatMap_nil, List.nil_append, stringBody, if_pos rfl]
  | cons c cs ih =>
      rw [List.flatMap_cons, List.append_assoc]
      exact written_char_body c _ rest cs ih

theorem written_string (s : String) (rest : List Char) :
    writtenString s ++ rest = '"' :: (s.toList.flatMap writtenChar ++ '"' :: rest) := by
  rw [writtenString, List.cons_append, List.cons_append, List.append_assoc, List.singleton_append]

def Scalar.Plain : Scalar → Prop
  | .number (.minus _) | .number (.real _ _) => False
  | _ => True

theorem digit_starts (n : Nat) :
    ∃ d ds, digits n = d :: ds ∧ d.isDigit = true := by
  cases same : digits n with
  | nil => exact absurd same (by simp [digits])
  | cons d ds => exact ⟨d, ds, rfl, digits_digit n d (by simp [same])⟩

theorem digit_other (d c : Char) (digit : d.isDigit = true) (letter : c.isDigit = false) : d ≠ c := by
  intro same
  rw [same, letter] at digit
  cases digit

theorem digit_scalar (d : Char) (s : List Char) (digit : d.isDigit = true) :
    scalar (d :: s) = (number false (d :: s)).map fun p => (.number p.1, p.2) := by
  have other (c : Char) (letter : c.isDigit = false) : d ≠ c := digit_other d c digit letter
  rw [scalar, if_neg (other 'n' rfl), if_neg (other 't' rfl), if_neg (other 'f' rfl),
    if_neg (other '"' rfl), if_neg (other '-' rfl), if_pos digit]

theorem scalar_written (s : Scalar) (rest : List Char) (plain : s.Plain) (stops : Stops rest) :
    scalar (s.write ++ rest) = .ok (s, rest) := by
  cases s with
  | null => rfl
  | bool b => cases b <;> rfl
  | text t =>
      rw [Scalar.write, written_string, scalar, if_neg (by decide), if_neg (by decide),
        if_neg (by decide), if_pos rfl, written_body]
      simp [Except.map]
  | number n =>
      cases n with
      | whole n =>
          obtain ⟨d, ds, head, digit⟩ := digit_starts n.toNat
          have read := number_written n rest stops
          rw [Scalar.write, Number.text]
          rw [head, List.cons_append] at read ⊢
          rw [digit_scalar d _ digit, read]
          rfl
      | minus n => exact plain.elim
      | real negative x => exact plain.elim

end DarkDrop.Json
