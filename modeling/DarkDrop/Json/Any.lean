import DarkDrop.Json.Reader

namespace DarkDrop.Json

theorem word_le {w s r : List Char} (h : word w s = .ok r) : r.length ≤ s.length := by
  induction w generalizing s with
  | nil => simp_all [word]
  | cons c w ih =>
    cases s with
    | nil => simp [word] at h
    | cons d s =>
      simp only [word] at h
      split at h
      · have := ih h
        simp only [List.length_cons]
        omega
      · cases h

theorem stringBody_shorter {s t r : List Char} (h : stringBody s = .ok (t, r)) :
    r.length < s.length := by
  fun_induction stringBody s generalizing t r <;> simp_all [Prod.ext_iff] <;> grind

theorem skipString_shorter {s r : List Char} (h : skipString s = .ok r) : r.length < s.length := by
  fun_induction skipString s <;> simp_all <;> grind

theorem someDigits_shorter {eof bad s d r} (h : someDigits eof bad s = .ok (d, r)) :
    r.length < s.length := by
  unfold someDigits at h
  split at h
  · cases h
  · rename_i c t
    split at h
    · rename_i hc
      cases h
      simp only [List.dropWhile_cons, hc, if_true, List.length_cons]
      have := (List.dropWhile_suffix (l := t) Char.isDigit).length_le
      omega
    · cases h

theorem wholeDigits_shorter {eof s d r} (h : wholeDigits eof s = .ok (d, r)) :
    r.length < s.length := by
  unfold wholeDigits at h
  split at h
  · split at h <;> cases h
    simp
  · exact someDigits_shorter h

theorem fractionDigits_le {eof s d r} (h : fractionDigits eof s = .ok (d, r)) :
    r.length ≤ s.length := by
  unfold fractionDigits at h
  split at h
  · have := someDigits_shorter h
    simp only [List.length_cons]
    omega
  · cases h
    exact Nat.le_refl _

theorem exponentDigits_le {eof s e r} (h : exponentDigits eof s = .ok (e, r)) :
    r.length ≤ s.length := by
  unfold exponentDigits at h
  split at h
  · rename_i c t
    split at h
    · have ht : (exponentSign t).2.length ≤ t.length := by
        unfold exponentSign
        split <;> simp
      simp only [Except.map] at h
      split at h
      · cases h
      · rename_i hd
        have := someDigits_shorter hd
        cases h
        simp only [List.length_cons]
        omega
    · cases h
      exact Nat.le_refl _
  · cases h
    exact Nat.le_refl _

theorem numeral_shorter {eof negative s n r} (h : numeral eof negative s = .ok (n, r)) :
    r.length < s.length := by
  unfold numeral at h
  cases hw : wholeDigits eof s with
  | error e => simp [hw, bind, Except.bind] at h
  | ok w =>
    cases hf : fractionDigits eof w.2 with
    | error e => simp [hw, hf, bind, Except.bind] at h
    | ok f =>
      cases he : exponentDigits eof f.2 with
      | error e => simp [hw, hf, he, bind, Except.bind] at h
      | ok e =>
        simp only [hw, hf, he, bind, Except.bind, pure, Except.pure] at h
        cases h
        have h1 := wholeDigits_shorter (d := w.1) (r := w.2) hw
        have h2 := fractionDigits_le (d := f.1) (r := f.2) hf
        have h3 := exponentDigits_le (e := e.1) (r := e.2) he
        omega

theorem number_shorter {negative s n r} (h : number negative s = .ok (n, r)) :
    r.length < s.length := by
  unfold number at h
  split at h
  · cases h
  · rename_i hn
    have := numeral_shorter hn
    split at h <;> cases h
    exact this

theorem skipNumber_shorter {s r : List Char} (h : skipNumber s = .ok r) : r.length < s.length := by
  unfold skipNumber at h
  cases hn : numeral ⟨.badNumber, 0⟩ false s with
  | error e => rw [hn] at h; cases h
  | ok p =>
    rw [hn] at h
    cases h
    exact numeral_shorter (n := p.1) (r := p.2) hn

def scalar : List Char → Except Fault (Scalar × List Char)
  | [] => .error ⟨.endInValue, 0⟩
  | c :: s =>
    if c = 'n' then (word ['u', 'l', 'l'] s).map (Scalar.null, ·)
    else if c = 't' then (word ['r', 'u', 'e'] s).map (Scalar.bool true, ·)
    else if c = 'f' then (word ['a', 'l', 's', 'e'] s).map (Scalar.bool false, ·)
    else if c = '"' then (stringBody s).map fun p => (.text (.ofList p.1), p.2)
    else if c = '-' then (number true s).map fun p => (.number p.1, p.2)
    else if c.isDigit then (number false (c :: s)).map fun p => (.number p.1, p.2)
    else .error (.within .valueExpected (c :: s))

def skipScalar : List Char → Except Fault (Unit × List Char)
  | [] => .error ⟨.endInValue, 0⟩
  | c :: s =>
    if c = 'n' then (word ['u', 'l', 'l'] s).map ((), ·)
    else if c = 't' then (word ['r', 'u', 'e'] s).map ((), ·)
    else if c = 'f' then (word ['a', 'l', 's', 'e'] s).map ((), ·)
    else if c = '"' then (skipString s).map ((), ·)
    else if c = '-' then (skipNumber s).map ((), ·)
    else if c.isDigit then (skipNumber (c :: s)).map ((), ·)
    else .error (.within .valueExpected (c :: s))

theorem map_eq_ok {x : Except ε α} {f : α → β} {b : β} (h : x.map f = .ok b) :
    ∃ a, x = .ok a ∧ f a = b := by
  cases x with
  | error e => cases h
  | ok a => exact ⟨a, rfl, Except.ok.inj h⟩

theorem scalar_shorter {s a r} (h : scalar s = .ok (a, r)) : r.length < s.length := by
  unfold scalar at h
  split at h
  · cases h
  · rename_i c t
    simp only [List.length_cons]
    repeat' split at h
    · obtain ⟨x, hx, he⟩ := map_eq_ok h; cases he; have := word_le hx; omega
    · obtain ⟨x, hx, he⟩ := map_eq_ok h; cases he; have := word_le hx; omega
    · obtain ⟨x, hx, he⟩ := map_eq_ok h; cases he; have := word_le hx; omega
    · obtain ⟨x, hx, he⟩ := map_eq_ok h; cases he
      have := stringBody_shorter (t := x.1) (r := x.2) hx; omega
    · obtain ⟨x, hx, he⟩ := map_eq_ok h; cases he
      have := number_shorter (n := x.1) (r := x.2) hx; omega
    · obtain ⟨x, hx, he⟩ := map_eq_ok h; cases he
      have := number_shorter (n := x.1) (r := x.2) hx
      simpa using this
    · cases h

theorem skipScalar_shorter {s a r} (h : skipScalar s = .ok (a, r)) : r.length < s.length := by
  unfold skipScalar at h
  split at h
  · cases h
  · rename_i c t
    simp only [List.length_cons]
    repeat' split at h
    · obtain ⟨x, hx, he⟩ := map_eq_ok h; cases he; have := word_le hx; omega
    · obtain ⟨x, hx, he⟩ := map_eq_ok h; cases he; have := word_le hx; omega
    · obtain ⟨x, hx, he⟩ := map_eq_ok h; cases he; have := word_le hx; omega
    · obtain ⟨x, hx, he⟩ := map_eq_ok h; cases he; have := skipString_shorter hx; omega
    · obtain ⟨x, hx, he⟩ := map_eq_ok h; cases he; have := skipNumber_shorter hx; omega
    · obtain ⟨x, hx, he⟩ := map_eq_ok h; cases he
      have := skipNumber_shorter hx
      simpa using this
    · cases h

def kept : Manner where
  key s := (stringBody s).map fun p => (.ofList p.1, p.2)
  key_le h := by
    obtain ⟨x, hx, he⟩ := map_eq_ok h
    cases he
    exact Nat.le_of_lt (stringBody_shorter (t := x.1) (r := x.2) hx)
  listClosed := some .trailingComma
  objectClosed := .trailingComma
  objectEnded := .endInValue

def skipped : Manner where
  key s := (skipString s).map ("", ·)
  key_le h := by
    obtain ⟨x, hx, he⟩ := map_eq_ok h
    cases he
    exact Nat.le_of_lt (skipString_shorter hx)
  listClosed := none
  objectClosed := .keyExpected
  objectEnded := .endInObject

-- Any value with lists and objects at most `depth` deep. Of members with one name the last counts.
def any : (depth : Nat) → Reader Value
  | 0 =>
    { run := bracketed (fun r => .error (.before .tooDeep r)) (fun r => .error (.before .tooDeep r))
        fun r => (scalar r).map fun p => (.scalar p.1, p.2)
      shorter := bracketed_shorter (fun h => by cases h) (fun h => by cases h) fun h => by
        obtain ⟨x, hx, he⟩ := map_eq_ok h
        cases he
        exact scalar_shorter (a := x.1) (r := x.2) hx }
  | d + 1 =>
    { run := bracketed (fun r => (elements kept (any d) true r).map fun p => (.list p.1, p.2))
        (fun r => (members kept (fun ms k => (afterColon (any d)).map (setMember k · ms)) [] true r).map
          fun p => (.object p.1, p.2))
        fun r => (scalar r).map fun p => (.scalar p.1, p.2)
      shorter := bracketed_shorter
        (fun h => by
          obtain ⟨x, hx, he⟩ := map_eq_ok h
          cases he
          exact elements_le (a := x.1) (r := x.2) hx)
        (fun h => by
          obtain ⟨x, hx, he⟩ := map_eq_ok h
          cases he
          exact members_le (b := x.1) (r := x.2) hx)
        fun h => by
          obtain ⟨x, hx, he⟩ := map_eq_ok h
          cases he
          exact scalar_shorter (a := x.1) (r := x.2) hx }

def skipTo : (depth : Nat) → Reader Unit
  | 0 =>
    { run := bracketed (fun r => .error (.before .tooDeep r)) (fun r => .error (.before .tooDeep r))
        skipScalar
      shorter := bracketed_shorter (fun h => by cases h) (fun h => by cases h) skipScalar_shorter }
  | d + 1 =>
    { run := bracketed (fun r => (elements skipped (skipTo d) true r).map fun p => ((), p.2))
        (fun r => members skipped (fun _ _ => afterColon (skipTo d)) () true r) skipScalar
      shorter := bracketed_shorter
        (fun h => by
          obtain ⟨x, hx, he⟩ := map_eq_ok h
          cases he
          exact elements_le (a := x.1) (r := x.2) hx)
        members_le skipScalar_shorter }

-- Skips a value of any depth: a text is never deeper than it is long.
def skip : Reader Unit where
  run s := (skipTo s.length).run s
  shorter h := (skipTo _).shorter h

def maxDepth : Nat := 127

def finish (s : List Char) : Except Fault Unit :=
  match skipSpace s with
  | [] => .ok ()
  | r => .error (.within .trailing r)

def Reader.readAll (rd : Reader α) (text : List Char) : Except Misfit α :=
  match rd.run text with
  | .error e => .error (e.locate text)
  | .ok (a, r) =>
    match finish r with
    | .error e => .error (e.locate text)
    | .ok () => .ok a

end DarkDrop.Json
