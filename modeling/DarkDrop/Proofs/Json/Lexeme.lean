import DarkDrop.Proofs.Json.Skipping

namespace DarkDrop.Json

def isHex (c : Char) : Bool := c.isDigit || ('a' ≤ c && c ≤ 'f') || ('A' ≤ c && c ≤ 'F')

-- What stands between the quotes of a string. A unit may be half of a pair without the other.
inductive Body : List Char → Prop where
  | nil : Body []
  | plain (c : Char) (s : List Char) (quote : c ≠ '"') (slash : c ≠ '\\') (visible : ¬ c.toNat < 0x20)
      (later : Body s) : Body (c :: s)
  | letter (c : Char) (s : List Char) (known : c ∈ ['"', '\\', '/', 'b', 'f', 'n', 'r', 't'])
      (later : Body s) : Body ('\\' :: c :: s)
  | unit (w x y z : Char) (s : List Char) (hex : isHex w && isHex x && isHex y && isHex z) (later : Body s) :
      Body ('\\' :: 'u' :: w :: x :: y :: z :: s)

theorem plain_body (s : List Char) (plain : s.all fun c => c != '"' && c != '\\' && !(c.toNat < 0x20)) : Body s := by
  induction s with
  | nil => exact .nil
  | cons c s ih =>
      simp only [List.all_cons, Bool.and_eq_true, bne_iff_ne, Bool.not_eq_true', decide_eq_false_iff_not] at plain
      obtain ⟨⟨⟨quote, slash⟩, visible⟩, later⟩ := plain
      exact .plain c s quote slash visible (ih later)

def Digits (ds : List Char) : Prop := ds ≠ [] ∧ ∀ d ∈ ds, d.isDigit

def Whole (w : List Char) : Prop := Digits w ∧ (w.head? = some '0' → w = ['0'])

def Fraction (f : List Char) : Prop := f = [] ∨ ∃ ds, Digits ds ∧ f = '.' :: ds

def Exponent (e : List Char) : Prop :=
  e = [] ∨ ∃ letter ∈ ['e', 'E'], ∃ sign ∈ [[], ['+'], ['-']], ∃ ds, Digits ds ∧ e = letter :: (sign ++ ds)

inductive Lexeme : List Char → Prop where
  | word (w : List Char) (known : w ∈ [['n', 'u', 'l', 'l'], ['t', 'r', 'u', 'e'], ['f', 'a', 'l', 's', 'e']]) :
      Lexeme w
  | text (body : List Char) (valid : Body body) : Lexeme ('"' :: (body ++ ['"']))
  | number (sign whole fraction exponent : List Char) (signed : sign ∈ [[], ['-']]) (first : Whole whole)
      (second : Fraction fraction) (third : Exponent exponent) :
      Lexeme (sign ++ (whole ++ (fraction ++ exponent)))

def Ends (s : List Char) : Prop := ∀ c r, s = c :: r → isSpace c ∨ c = ',' ∨ c = ']' ∨ c = '}'

def Without (p : Char → Bool) (s : List Char) : Prop := ∀ c r, s = c :: r → p c = false

theorem ends_without (p : Char → Bool) (none : [' ', '\t', '\n', '\r', ',', ']', '}'].all fun c => !p c)
    (s : List Char) (ends : Ends s) : Without p s := by
  intro c r same
  have member : c ∈ [' ', '\t', '\n', '\r', ',', ']', '}'] := by
    have := ends c r same
    simp only [isSpace, Bool.or_eq_true, beq_iff_eq] at this
    simp only [List.mem_cons, List.not_mem_nil, or_false]
    tauto
  simpa using List.all_eq_true.mp none c member

theorem digits_taken (eof bad : Fault) (ds rest : List Char) (digits : Digits ds)
    (after : Without Char.isDigit rest) : someDigits eof bad (ds ++ rest) = .ok (ds, rest) := by
  obtain ⟨some, each⟩ := digits
  have none : rest.takeWhile Char.isDigit = [] ∧ rest.dropWhile Char.isDigit = rest := by
    cases rest with
    | nil => exact ⟨rfl, rfl⟩
    | cons c rest => simp [after c rest rfl]
  have taken : (ds ++ rest).takeWhile Char.isDigit = ds := by
    rw [List.takeWhile_append_of_pos each, none.1, List.append_nil]
  have left : (ds ++ rest).dropWhile Char.isDigit = rest := by
    rw [List.dropWhile_append_of_pos each, none.2]
  cases ds with
  | nil => exact absurd rfl some
  | cons d ds =>
      rw [List.cons_append] at taken left ⊢
      rw [someDigits, if_pos (each d (by simp)), taken, left]

theorem whole_taken (eof : Fault) (w rest : List Char) (whole : Whole w) (after : Without Char.isDigit rest) :
    wholeDigits eof (w ++ rest) = .ok (w, rest) := by
  obtain ⟨digits, zero⟩ := whole
  cases w with
  | nil => exact absurd rfl digits.1
  | cons d ds =>
      rw [wholeDigits.eq_def]
      split
      · rename_i c r same
        rw [List.cons_append] at same
        obtain ⟨rfl, same⟩ := List.cons.inj same
        obtain ⟨_, rfl⟩ := List.cons.inj (zero rfl)
        cases same
        rw [if_neg (by simp [after c r rfl])]
      · exact digits_taken _ _ _ rest digits after

theorem fraction_taken (eof : Fault) (f rest : List Char) (fraction : Fraction f)
    (after : Without (fun c => c.isDigit || c == '.') rest) :
    fractionDigits eof (f ++ rest) = .ok (f.tail, rest) := by
  obtain rfl | ⟨ds, digits, rfl⟩ := fraction
  · rw [List.nil_append, fractionDigits.eq_def]
    split
    · rename_i r
      have := after '.' r rfl
      simp at this
    · rfl
  · have digit : Without Char.isDigit rest := fun c r same => by
      have := after c r same
      simp only [Bool.or_eq_false_iff] at this
      exact this.1
    exact digits_taken _ _ ds rest digits digit

theorem sign_taken (sign ds : List Char) (known : sign ∈ [[], ['+'], ['-']]) (digits : Digits ds) :
    ∃ up, ∀ rest, exponentSign (sign ++ ds ++ rest) = (up, ds ++ rest) := by
  simp only [List.mem_cons, List.not_mem_nil, or_false] at known
  rcases known with rfl | rfl | rfl
  · obtain ⟨some, each⟩ := digits
    cases ds with
    | nil => exact absurd rfl some
    | cons d ds =>
        refine ⟨true, fun rest => ?_⟩
        have digit := each d (by simp)
        rw [List.nil_append, List.cons_append, exponentSign.eq_def]
        split
        · rename_i same
          rw [(List.cons.inj same).1] at digit
          cases digit
        · rename_i same
          rw [(List.cons.inj same).1] at digit
          cases digit
        · rfl
  · exact ⟨true, fun _ => rfl⟩
  · exact ⟨false, fun _ => rfl⟩

theorem exponent_taken (e : List Char) (exponent : Exponent e) : ∃ read, ∀ eof rest, Ends rest →
    exponentDigits eof (e ++ rest) = .ok (read, rest) := by
  obtain rfl | ⟨letter, known, sign, signed, ds, digits, rfl⟩ := exponent
  · refine ⟨none, fun eof rest ends => ?_⟩
    cases rest with
    | nil => rfl
    | cons c rest =>
        have other := ends_without (fun c => c = 'e' || c = 'E') (by decide) _ ends c rest rfl
        rw [List.nil_append, exponentDigits, if_neg (by simpa using other)]
  · obtain ⟨up, split⟩ := sign_taken sign ds signed digits
    refine ⟨some (up, ds), fun eof rest ends => ?_⟩
    have read := digits_taken eof (.within .badNumber (ds ++ rest)) ds rest digits
      (ends_without Char.isDigit (by decide) rest ends)
    have e : (letter = 'e' || letter = 'E') = true := by simpa using known
    rw [List.cons_append, exponentDigits, if_pos e]
    simp only [split rest, read]
    rfl

theorem exponent_apart (e rest : List Char) (exponent : Exponent e) (ends : Ends rest) :
    Without (fun c => c.isDigit || c == '.') (e ++ rest) := by
  obtain rfl | ⟨letter, known, sign, _, ds, _, rfl⟩ := exponent
  · exact ends_without _ (by decide) rest ends
  · intro c r same
    rw [List.cons_append] at same
    rw [← (List.cons.inj same).1]
    simp only [List.mem_cons, List.not_mem_nil, or_false] at known
    rcases known with rfl | rfl <;> rfl

theorem fraction_apart (f rest : List Char) (fraction : Fraction f)
    (after : Without (fun c => c.isDigit || c == '.') rest) : Without Char.isDigit (f ++ rest) := by
  intro c r same
  obtain rfl | ⟨ds, _, rfl⟩ := fraction
  · have := after c r same
    simp only [Bool.or_eq_false_iff] at this
    exact this.1
  · rw [List.cons_append] at same
    rw [← (List.cons.inj same).1]
    rfl

theorem numeral_taken (negative : Bool) (whole fraction exponent : List Char) (first : Whole whole)
    (second : Fraction fraction) (third : Exponent exponent) : ∃ n, ∀ eof rest, Ends rest →
    numeral eof negative (whole ++ (fraction ++ exponent) ++ rest) = .ok (n, rest) := by
  obtain ⟨power, taken⟩ := exponent_taken exponent third
  refine ⟨⟨negative, whole, fraction.tail, power⟩, fun eof rest ends => ?_⟩
  have apart := exponent_apart exponent rest third ends
  have digits := whole_taken eof whole _ first (fraction_apart fraction _ second apart)
  have behind := fraction_taken eof fraction _ second apart
  simp only [numeral, List.append_assoc, digits, behind, taken eof rest ends, bind, Except.bind, pure, Except.pure]

theorem hex_known (c : Char) (hex : isHex c) : ∃ n, hexValue c = some n := by
  rw [hexValue]
  split_ifs with digit lower upper
  · exact ⟨_, rfl⟩
  · exact ⟨_, rfl⟩
  · exact ⟨_, rfl⟩
  · simp only [isHex, Bool.or_eq_true] at hex
    tauto

theorem unit_taken (w x y z : Char) (hex : isHex w && isHex x && isHex y && isHex z) : ∃ u, ∀ rest,
    codeUnit (w :: x :: y :: z :: rest) = .ok (u, rest) := by
  simp only [Bool.and_eq_true] at hex
  obtain ⟨⟨⟨one, two⟩, three⟩, four⟩ := hex
  obtain ⟨a, first⟩ := hex_known w one
  obtain ⟨b, second⟩ := hex_known x two
  obtain ⟨c, third⟩ := hex_known y three
  obtain ⟨d, fourth⟩ := hex_known z four
  refine ⟨((a * 16 + b) * 16 + c) * 16 + d, fun rest => ?_⟩
  simp only [codeUnit, fourHex, first, second, third, fourth]

theorem body_skipped (body rest : List Char) (valid : Body body) :
    skipString (body ++ '"' :: rest) = .ok rest := by
  induction valid with
  | nil => rw [List.nil_append, skipString, if_pos rfl]
  | plain c s quote slash visible _ ih =>
      rw [List.cons_append, skipString, if_neg quote, if_neg slash, if_neg visible, ih]
  | letter c s known _ ih =>
      refine skip_string_escape _ (s ++ '"' :: rest) rest ?_ ih
      simp only [List.mem_cons, List.not_mem_nil, or_false] at known
      rcases known with rfl | rfl | rfl | rfl | rfl | rfl | rfl | rfl <;> rfl
  | unit w x y z s hex _ ih =>
      obtain ⟨u, read⟩ := unit_taken w x y z hex
      exact unit_skipped _ (s ++ '"' :: rest) rest u (read _) ih

-- A scanner that finds the same, whatever comes after the text it has used.
def Local {α : Type} (scan : List Char → Except Fault (α × List Char)) : Prop :=
  ∀ s a r, scan s = .ok (a, r) → ∃ used, s = used ++ r ∧ ∀ rest, scan (used ++ rest) = .ok (a, rest)

theorem unit_local : Local codeUnit := by
  intro s u r read
  have same := read
  rw [codeUnit] at read
  split at read
  · rename_i found
    cases read
    rw [fourHex.eq_def] at found
    split at found
    · rename_i a b c d rest
      split at found
      · rename_i w x y z first second third fourth
        cases found
        refine ⟨[a, b, c, d], rfl, fun rest => ?_⟩
        simp only [List.cons_append, List.nil_append, codeUnit, fourHex, first, second, third, fourth]
      · cases found
    · cases found
  · split at read <;> cases read

theorem second_local : Local secondUnit := by
  intro s u r read
  rw [secondUnit.eq_def] at read
  split at read
  · cases read
  · cases read
  · split at read
    · cases read
    · rename_i v left unit
      split at read
      · rename_i low
        cases read
        obtain ⟨used, rfl, again⟩ := unit_local _ _ _ unit
        refine ⟨'\\' :: 'u' :: used, rfl, fun rest => ?_⟩
        simp only [List.cons_append, secondUnit, again, low, if_true]
      · cases read
  · cases read
  · cases read

theorem unicode_local : Local unicodeEscape := by
  intro s c r read
  rw [unicodeEscape] at read
  split at read
  · cases read
  · rename_i u left unit
    obtain ⟨used, rfl, again⟩ := unit_local _ _ _ unit
    split at read
    · cases read
    · rename_i low
      split at read
      · rename_i high
        split at read
        · cases read
        · rename_i v last second
          obtain ⟨rfl, rfl⟩ := Prod.mk.inj (Except.ok.inj read)
          obtain ⟨more, rfl, later⟩ := second_local _ _ _ second
          refine ⟨used ++ more, by rw [List.append_assoc], fun rest => ?_⟩
          rw [List.append_assoc, unicodeEscape, again]
          simp only [low, high, later, if_true]
          rfl
      · rename_i high
        obtain ⟨rfl, rfl⟩ := Prod.mk.inj (Except.ok.inj read)
        refine ⟨used, rfl, fun rest => ?_⟩
        rw [unicodeEscape, again]
        simp only [low, high]
        rfl

theorem escape_local : Local escape := by
  intro s d r read
  cases s with
  | nil => cases read
  | cons c s =>
      rw [escape] at read
      split at read
      · rename_i unit
        obtain ⟨used, rfl, again⟩ := unicode_local _ _ _ read
        exact ⟨c :: used, rfl, fun rest => by rw [List.cons_append, escape, if_pos unit, again]⟩
      · rename_i letter
        split at read
        · rename_i known
          cases read
          exact ⟨[c], rfl, fun rest => by rw [List.singleton_append, escape, if_neg letter, known]⟩
        · cases read

theorem string_local : Local stringBody := by
  intro s t r read
  fun_induction stringBody s generalizing t r with
  | case1 => cases read
  | case2 rest =>
      cases read
      exact ⟨['"'], rfl, fun rest => by rw [List.singleton_append, stringBody, if_pos rfl]⟩
  | case3 => cases read
  | case4 => cases read
  | case5 s c rest escaped _ body left later _ ih =>
      cases read
      obtain ⟨used, rfl, again⟩ := escape_local _ _ _ escaped
      obtain ⟨more, rfl, others⟩ := ih body left later
      refine ⟨'\\' :: (used ++ more), by simp, fun rest => ?_⟩
      rw [List.cons_append, List.append_assoc]
      exact body_escape _ _ _ _ _ (again _) (others rest)
  | case6 => cases read
  | case7 => cases read
  | case8 c s quote slash control body left later ih =>
      cases read
      obtain ⟨used, rfl, again⟩ := ih body left later
      exact ⟨c :: used, rfl, fun rest => body_plain c _ rest body quote slash control (again rest)⟩

def body? (body : List Char) : Option (List Char) := (stringBody (body ++ ['"'])).toOption.map Prod.fst

def name? (body : List Char) : Option String := (body? body).map String.ofList

theorem body_read (body rest r t : List Char) (valid : Body body) :
    stringBody (body ++ '"' :: rest) = .ok (t, r) ↔ body? body = some t ∧ r = rest := by
  -- A string that is read is skipped up to the same place, which is the closing quote.
  have closed (rest r t : List Char) (read : stringBody (body ++ '"' :: rest) = .ok (t, r)) : r = rest :=
    Except.ok.inj ((string_skipped _ t r read).symm.trans (body_skipped body rest valid))
  have moved (rest later t : List Char) (read : stringBody (body ++ '"' :: rest) = .ok (t, rest)) :
      stringBody (body ++ '"' :: later) = .ok (t, later) := by
    obtain ⟨used, same, again⟩ := string_local _ _ _ read
    have shape : body ++ '"' :: rest = (body ++ ['"']) ++ rest := by simp
    rw [shape] at same
    cases List.append_cancel_right same
    simpa using again later
  rw [body?]
  constructor
  · intro read
    have same := closed rest r t read
    rw [same] at read
    rw [moved rest [] t read]
    exact ⟨rfl, same⟩
  · rintro ⟨found, rfl⟩
    cases read : stringBody (body ++ ['"']) with
    | error e =>
        rw [read] at found
        cases found
    | ok p =>
        obtain ⟨t, left⟩ := p
        rw [read] at found
        cases found
        cases closed [] left t read
        exact moved [] r t read

theorem key_read (body rest r : List Char) (k : String) (valid : Body body) :
    kept.key (body ++ '"' :: rest) = .ok (k, r) ↔ name? body = some k ∧ r = rest := by
  change (stringBody _).map _ = _ ↔ _
  simp only [mapped_ok, Prod.exists, Prod.mk.injEq, name?, Option.map_eq_some_iff, body_read body rest _ _ valid]
  constructor
  · rintro ⟨t, _, ⟨found, rfl⟩, rfl, rfl⟩
    exact ⟨⟨t, found, rfl⟩, rfl⟩
  · rintro ⟨⟨t, found, rfl⟩, rfl⟩
    exact ⟨t, _, ⟨found, rfl⟩, rfl, rfl⟩

def scalar? (lexeme : List Char) : Option Scalar := (scalar lexeme).toOption.map Prod.fst

def Determined {α : Type} (scan : List Char → Except Fault (α × List Char)) (lexeme : List Char)
    (o : Option α) : Prop :=
  ∀ rest, Ends rest → ∀ x r, scan (lexeme ++ rest) = .ok (x, r) ↔ o = some x ∧ r = rest

theorem ends_nil : Ends [] := nofun

theorem determined_alone {α : Type} (scan : List Char → Except Fault (α × List Char)) (lexeme : List Char)
    (o : Option α) (determined : Determined scan lexeme o) :
    o = (scan lexeme).toOption.map Prod.fst := by
  have alone := determined [] ends_nil
  rw [List.append_nil] at alone
  cases read : scan lexeme with
  | ok p =>
      obtain ⟨x, r⟩ := p
      exact ((alone x r).mp read).1
  | error e =>
      cases o with
      | none => rfl
      | some x =>
          cases read.symm.trans ((alone x []).mpr ⟨rfl, rfl⟩)

theorem leaf_starts (lexeme : List Char) (valid : Lexeme lexeme) :
    ∃ c s, lexeme = c :: s ∧ isSpace c = false ∧ c ∉ ['[', ']', '{', '}', ','] := by
  cases valid with
  | word _ known =>
      simp only [List.mem_cons, List.not_mem_nil, or_false] at known
      rcases known with rfl | rfl | rfl <;> exact ⟨_, _, rfl, by decide, by decide⟩
  | text body _ => exact ⟨_, _, rfl, by decide, by decide⟩
  | number sign whole fraction exponent signed first _ _ =>
      simp only [List.mem_cons, List.not_mem_nil, or_false] at signed
      rcases signed with rfl | rfl
      · obtain ⟨⟨some, each⟩, _⟩ := first
        cases whole with
        | nil => exact absurd rfl some
        | cons d ds =>
            have digit := each d (by simp)
            have other (c : Char) (letter : c.isDigit = false) : d ≠ c := digit_other d c digit letter
            refine ⟨d, _, rfl, ?_, ?_⟩
            · simp [isSpace, other ' ' rfl, other '\t' rfl, other '\n' rfl, other '\r' rfl]
            · simp [other '[' rfl, other ']' rfl, other '{' rfl, other '}' rfl, other ',' rfl]
      · exact ⟨_, _, rfl, by decide, by decide⟩

theorem number_determined (negative : Bool) (whole fraction exponent : List Char) (first : Whole whole)
    (second : Fraction fraction) (third : Exponent exponent) :
    ∃ o, Determined (number negative) (whole ++ (fraction ++ exponent)) o := by
  obtain ⟨n, taken⟩ := numeral_taken negative whole fraction exponent first second third
  refine ⟨n.number.toOption, fun rest ends x r => ?_⟩
  rw [number, taken _ rest ends]
  cases value : n.number with
  | ok y => simp [value, Except.toOption, eq_comm]
  | error e => simp [value, Except.toOption]

theorem map_determined {α β : Type} (scan : List Char → Except Fault (α × List Char))
    (other : List Char → Except Fault (β × List Char)) (f : α → β) (opening lexeme : List Char) (o : Option α)
    (determined : Determined scan lexeme o)
    (mapped : ∀ rest, other (opening ++ lexeme ++ rest) = (scan (lexeme ++ rest)).map fun p => (f p.1, p.2)) :
    Determined other (opening ++ lexeme) (o.map f) := by
  intro rest ends y r
  simp only [mapped, mapped_ok, Prod.exists, Prod.mk.injEq, determined rest ends, Option.map_eq_some_iff]
  constructor
  · rintro ⟨x, _, ⟨found, rfl⟩, rfl, rfl⟩
    exact ⟨⟨x, found, rfl⟩, rfl⟩
  · rintro ⟨⟨x, found, rfl⟩, rfl⟩
    exact ⟨x, _, ⟨found, rfl⟩, rfl, rfl⟩

theorem leaf_determined (lexeme : List Char) (valid : Lexeme lexeme) :
    Determined scalar lexeme (scalar? lexeme) := by
  have some : ∃ o, Determined scalar lexeme o := by
    cases valid with
    | word _ known =>
        simp only [List.mem_cons, List.not_mem_nil, or_false] at known
        rcases known with rfl | rfl | rfl
        · exact ⟨some .null, fun rest _ x r => by simp [scalar, word, Except.map, eq_comm]⟩
        · exact ⟨some (.bool true), fun rest _ x r => by simp [scalar, word, Except.map, eq_comm]⟩
        · exact ⟨some (.bool false), fun rest _ x r => by simp [scalar, word, Except.map, eq_comm]⟩
    | text body valid =>
        have read : Determined stringBody (body ++ ['"']) (body? body) := by
          intro rest _ t r
          rw [List.append_assoc]
          exact body_read body rest r t valid
        exact ⟨_, map_determined stringBody scalar (fun t => .text (.ofList t)) ['"'] _ _ read fun rest => by
          simp [scalar]⟩
    | number sign whole fraction exponent signed first second third =>
        simp only [List.mem_cons, List.not_mem_nil, or_false] at signed
        rcases signed with rfl | rfl
        · obtain ⟨o, read⟩ := number_determined false whole fraction exponent first second third
          obtain ⟨⟨some, each⟩, _⟩ := first
          cases whole with
          | nil => exact absurd rfl some
          | cons d ds =>
              exact ⟨_, map_determined (number false) scalar .number [] _ _ read fun rest =>
                digit_scalar d _ (each d (by simp))⟩
        · obtain ⟨o, read⟩ := number_determined true whole fraction exponent first second third
          exact ⟨_, map_determined (number true) scalar .number ['-'] _ _ read fun rest => by simp [scalar]⟩
  obtain ⟨o, determined⟩ := some
  have same : o = scalar? lexeme := determined_alone scalar lexeme o determined
  rwa [same] at determined

theorem leaf_skipped (lexeme rest : List Char) (valid : Lexeme lexeme) (ends : Ends rest) :
    skipScalar (lexeme ++ rest) = .ok ((), rest) := by
  cases valid with
  | word _ known =>
      simp only [List.mem_cons, List.not_mem_nil, or_false] at known
      rcases known with rfl | rfl | rfl <;> simp [skipScalar, word, Except.map]
  | text body valid =>
      have skipped := body_skipped body rest valid
      simp [skipScalar, skipped, Except.map]
  | number sign whole fraction exponent signed first second third =>
      have skipped : skipNumber (whole ++ (fraction ++ exponent) ++ rest) = .ok rest := by
        obtain ⟨n, taken⟩ := numeral_taken false whole fraction exponent first second third
        rw [skipNumber, taken _ rest ends]
        rfl
      simp only [List.mem_cons, List.not_mem_nil, or_false] at signed
      rcases signed with rfl | rfl
      · obtain ⟨⟨some, each⟩, _⟩ := first
        cases whole with
        | nil => exact absurd rfl some
        | cons d ds =>
            have digit := each d (by simp)
            have other (c : Char) (letter : c.isDigit = false) : d ≠ c := digit_other d c digit letter
            rw [List.nil_append]
            rw [List.cons_append, List.cons_append] at skipped ⊢
            rw [skipScalar, if_neg (other 'n' rfl), if_neg (other 't' rfl), if_neg (other 'f' rfl),
              if_neg (other '"' rfl), if_neg (other '-' rfl), if_pos digit, skipped]
            rfl
      · change (skipNumber (whole ++ (fraction ++ exponent) ++ rest)).map ((), ·) = _
        rw [skipped]
        rfl

end DarkDrop.Json
