import DarkDrop.Proofs.Json.AsWritten

namespace DarkDrop.Json

theorem digits_skipped (eof other bad : Fault) (s r ds : List Char)
    (read : someDigits eof bad s = .ok (ds, r)) : someDigits other bad s = .ok (ds, r) := by
  cases s with
  | nil => cases read
  | cons c s => exact read

theorem whole_skipped (eof other : Fault) (s r ds : List Char)
    (read : wholeDigits eof s = .ok (ds, r)) : wholeDigits other s = .ok (ds, r) := by
  unfold wholeDigits at read ⊢
  split at read
  · exact read
  · exact digits_skipped eof other _ s r ds read

theorem fraction_skipped (eof other : Fault) (s r ds : List Char)
    (read : fractionDigits eof s = .ok (ds, r)) : fractionDigits other s = .ok (ds, r) := by
  unfold fractionDigits at read ⊢
  split at read
  · exact digits_skipped eof other _ _ r ds read
  · exact read

theorem exponent_skipped (eof other : Fault) (s r : List Char) (e : Option (Bool × List Char))
    (read : exponentDigits eof s = .ok (e, r)) : exponentDigits other s = .ok (e, r) := by
  cases s with
  | nil => exact read
  | cons c s =>
    simp only [exponentDigits] at read ⊢
    split at read
    · obtain ⟨⟨ds, rest⟩, digits, same⟩ := map_eq_ok read
      rw [if_pos ‹_›, digits_skipped eof other _ _ rest ds digits, ← same]
      rfl
    · rw [if_neg ‹_›, read]

theorem numeral_skipped (eof other : Fault) (negative sign : Bool) (s r : List Char) (n : Numeral)
    (read : numeral eof negative s = .ok (n, r)) : (numeral other sign s).map (·.2) = .ok r := by
  cases whole : wholeDigits eof s with
  | error e => simp [numeral, whole, bind, Except.bind] at read
  | ok w =>
    cases fraction : fractionDigits eof w.2 with
    | error e => simp [numeral, whole, fraction, bind, Except.bind] at read
    | ok f =>
      cases exponent : exponentDigits eof f.2 with
      | error e => simp [numeral, whole, fraction, exponent, bind, Except.bind] at read
      | ok e =>
        simp only [numeral, whole, fraction, exponent, bind, Except.bind, pure, Except.pure] at read
        cases read
        have whole := whole_skipped eof other s w.2 w.1 whole
        have fraction := fraction_skipped eof other w.2 f.2 f.1 fraction
        have exponent := exponent_skipped eof other f.2 e.2 e.1 exponent
        simp only [numeral, whole, fraction, exponent, bind, Except.bind, pure, Except.pure, Except.map]

theorem number_skipped (negative : Bool) (s r : List Char) (n : Number)
    (read : number negative s = .ok (n, r)) : skipNumber s = .ok r := by
  rw [number] at read
  split at read
  · cases read
  · rename_i n rest written
    split at read
    · cases read
      exact numeral_skipped _ _ negative false s r n written
    · cases read

theorem skip_string_escape (s rest r : List Char) (escaped : skipEscape s = .ok rest)
    (later : skipString rest = .ok r) : skipString ('\\' :: s) = .ok r := by
  rw [skipString, if_neg (by decide), if_pos rfl]
  split
  · rename_i failed
    rw [escaped] at failed
    cases failed
  · rename_i taken
    rw [escaped] at taken
    cases taken
    exact later

theorem unit_skipped (s rest r : List Char) (u : Nat) (unit : codeUnit s = .ok (u, rest))
    (later : skipString rest = .ok r) : skipString ('\\' :: 'u' :: s) = .ok r := by
  refine skip_string_escape _ rest r ?_ later
  rw [skipEscape, if_pos rfl, unit]
  rfl

theorem second_skipped (s rest r : List Char) (u : Nat) (second : secondUnit s = .ok (u, rest))
    (later : skipString rest = .ok r) : skipString s = .ok r := by
  rw [secondUnit.eq_def] at second
  split at second
  · cases second
  · cases second
  · split at second
    · cases second
    · rename_i v left unit
      split at second
      · cases second
        exact unit_skipped _ rest r u unit later
      · cases second
  · cases second
  · cases second

-- A pair of surrogates is one escape to the one reader, and two to the other.
theorem unicode_skipped (s rest r : List Char) (c : Char) (escaped : unicodeEscape s = .ok (c, rest))
    (later : skipString rest = .ok r) : skipString ('\\' :: 'u' :: s) = .ok r := by
  rw [unicodeEscape] at escaped
  split at escaped
  · cases escaped
  · rename_i u left unit
    split at escaped
    · cases escaped
    · split at escaped
      · split at escaped
        · cases escaped
        · rename_i v last second
          obtain ⟨-, rfl⟩ := Prod.mk.inj (Except.ok.inj escaped)
          exact unit_skipped s left r u unit (second_skipped left last r v second later)
      · obtain ⟨-, rfl⟩ := Prod.mk.inj (Except.ok.inj escaped)
        exact unit_skipped s left r u unit later

theorem escape_skipped (s rest r : List Char) (c : Char) (escaped : escape s = .ok (c, rest))
    (later : skipString rest = .ok r) : skipString ('\\' :: s) = .ok r := by
  cases s with
  | nil => cases escaped
  | cons d s =>
    rw [escape] at escaped
    split at escaped
    case isTrue letter =>
      rw [letter]
      exact unicode_skipped s rest r c escaped later
    case isFalse letter =>
      split at escaped
      case h_1 known =>
        cases escaped
        refine skip_string_escape _ rest r ?_ later
        rw [skipEscape, if_neg letter, known]
      case h_2 => cases escaped

theorem string_skipped (s t r : List Char) (read : stringBody s = .ok (t, r)) :
    skipString s = .ok r := by
  fun_induction stringBody s generalizing t r with
  | case1 => cases read
  | case2 rest =>
      cases read
      rw [skipString, if_pos rfl]
  | case3 => cases read
  | case4 => cases read
  | case5 s c rest escaped _ body left later _ ih =>
      cases read
      exact escape_skipped s rest left c escaped (ih body left later)
  | case6 => cases read
  | case7 => cases read
  | case8 c s quote slash control body left later ih =>
      cases read
      rw [skipString, if_neg quote, if_neg slash, if_neg control]
      exact ih body left later

theorem scalar_skipped (s r : List Char) (x : Scalar) (read : scalar s = .ok (x, r)) :
    skipScalar s = .ok ((), r) := by
  have spared {α : Type} (y : Except Fault α) (z : Except Fault (List Char)) (f : α → Scalar × List Char)
      (found : y.map f = .ok (x, r)) (each : ∀ a, y = .ok a → z = .ok (f a).2) :
      z.map ((), ·) = .ok ((), r) := by
    obtain ⟨a, taken, same⟩ := map_eq_ok found
    rw [each a taken, same]
    rfl
  cases s with
  | nil => cases read
  | cons c s =>
    rw [scalar] at read
    rw [skipScalar]
    split_ifs at read ⊢
    · exact spared _ _ _ read fun _ taken => taken
    · exact spared _ _ _ read fun _ taken => taken
    · exact spared _ _ _ read fun _ taken => taken
    · exact spared _ _ _ read fun p taken => string_skipped s p.1 p.2 taken
    · exact spared _ _ _ read fun p taken => number_skipped true s p.2 p.1 taken
    · exact spared _ _ _ read fun p taken => number_skipped false (c :: s) p.2 p.1 taken

theorem next_element_skipped (first more : Bool) (s r : List Char)
    (next : nextElement kept first s = .ok (more, r)) : nextElement skipped first s = .ok (more, r) := by
  rw [nextElement] at next ⊢
  split at next
  · cases next
  · exact next
  · split_ifs at next ⊢
    · exact next
    · cases behind : skipSpace ‹List Char› with
      | nil =>
          rw [behind] at next
          cases next
      | cons d rest =>
          simp only [behind, skipped] at next ⊢
          split at next
          · cases next
          · exact next

theorem key_skipped (s r : List Char) (k : String) (read : kept.key s = .ok (k, r)) :
    skipped.key s = .ok ("", r) := by
  obtain ⟨⟨t, rest⟩, taken, same⟩ := map_eq_ok read
  cases same
  change (skipString s).map _ = _
  rw [string_skipped s t rest taken]
  rfl

theorem next_key_skipped (first : Bool) (s r : List Char) (k : Option String)
    (next : nextKey kept first s = .ok (k, r)) :
    nextKey skipped first s = .ok (k.map fun _ => "", r) := by
  have found (t : List Char) (read : (kept.key t).map (fun p => (some p.1, p.2)) = .ok (k, r)) :
      (skipped.key t).map (fun p => (some p.1, p.2)) = .ok (k.map fun _ => "", r) := by
    obtain ⟨⟨name, rest⟩, taken, same⟩ := map_eq_ok read
    cases same
    rw [key_skipped t rest name taken]
    rfl
  rw [nextKey] at next ⊢
  split at next
  · cases next
  · cases next
    rfl
  · split_ifs at next ⊢
    · exact found _ next
    · split at next
      · cases next
      · exact found _ next
      · cases next
      · cases next

structure Manner.Spared (manner : Manner) : Prop where
  element : ∀ first more s r, nextElement manner first s = .ok (more, r) →
    nextElement skipped first s = .ok (more, r)
  closed : ∀ first s r, nextKey manner first s = .ok (none, r) → nextKey skipped first s = .ok (none, r)
  key : ∀ first s r k, nextKey manner first s = .ok (some k, r) →
    ∃ j, nextKey skipped first s = .ok (some j, r)

theorem kept_spared : kept.Spared :=
  ⟨next_element_skipped, fun first s r => next_key_skipped first s r none,
    fun first s r k next => ⟨"", next_key_skipped first s r (some k) next⟩⟩

theorem skipped_spared : skipped.Spared :=
  ⟨fun _ _ _ _ => id, fun _ _ _ => id, fun _ _ _ k next => ⟨k, next⟩⟩

def Skips {α : Type} (n : Nat) (rd : Reader α) (skip : Reader Unit) : Prop :=
  ∀ s r a, s.length ≤ n → rd.run s = .ok (a, r) → skip.run s = .ok ((), r)

section

variable {α : Type} (n : Nat) (rd : Reader α) (skip : Reader Unit)

theorem colon_skipped (value : Skips n rd skip) : Skips n (afterColon rd) (afterColon skip) := by
  intro s r a short read
  obtain ⟨text, colon, taken⟩ := (after_colon rd s r a).mp read
  have shorter := length_skipSpace_le s
  rw [colon, List.length_cons] at shorter
  exact (after_colon skip s r ()).mpr ⟨text, colon, value text r a (by omega) taken⟩

theorem map_skipped {β : Type} (f : α → β) (value : Skips n rd skip) : Skips n (rd.map f) skip := by
  intro s r b short read
  obtain ⟨a, taken, _⟩ := (map_ok rd f s r b).mp read
  exact value s r a short taken

variable (manner : Manner) (spared : manner.Spared)
include spared

theorem items_skipped (value : Skips n rd skip) (first : Bool) (s r : List Char) (as : List α)
    (items : Items manner rd first s as r) (short : s.length ≤ n) :
    ∃ us, elements skipped skip first s = .ok (us, r) := by
  induction items with
  | closed first s r next =>
      exact ⟨[], elements_closed skipped skip first s r (spared.element first false s r next)⟩
  | item first s text rest r a as next read _ ih =>
      have begun := nextElement_le next
      have shorter := rd.shorter read
      obtain ⟨us, later⟩ := ih (by omega)
      exact ⟨() :: us, elements_step skip first s text rest r () us
        (spared.element first true s text next) (value text rest a (by omega) read) later⟩

theorem members_skipped {σ : Type} (step : σ → String → Reader σ)
    (value : ∀ acc k, Skips n (step acc k) (afterColon skip)) (acc last : σ) (first : Bool)
    (s r : List Char) (read : members manner step acc first s = .ok (last, r)) (short : s.length ≤ n) :
    members skipped (fun _ _ => afterColon skip) () first s = .ok ((), r) := by
  fun_induction members manner step acc first s with
  | case1 => cases read
  | case2 acc first s rest next =>
      cases read
      exact members_closed skipped _ () first s r (spared.closed first s r next)
  | case3 => cases read
  | case4 acc first s k text next after rest taken _ _ ih =>
      obtain ⟨j, found⟩ := spared.key first s text k next
      have begun := nextKey_le next
      have shorter := (step acc k).shorter taken
      have passed := value acc k text rest after (by omega) taken
      exact members_step _ () () () first j s text rest r found passed (ih read (by omega))

end

theorem plain_skipped (n : Nat) (s r : List Char) (x : Scalar) (plain : Unbracketed s)
    (read : scalar (skipSpace s) = .ok (x, r)) : (skipTo n).run s = .ok ((), r) := by
  have other : (skipTo n).run s = skipScalar (skipSpace s) := by
    cases n with
    | zero => exact bracketed_plain _ _ _ s plain
    | succ n => exact bracketed_plain _ _ _ s plain
  rw [other]
  exact scalar_skipped _ r x read

-- On the length of the text, which is never less than its depth.
theorem depth_skipped (n d : Nat) : Skips n (asWritten d) (skipTo n) := by
  induction n generalizing d with
  | zero =>
    intro s r v short read
    rw [List.length_eq_zero_iff.mp (Nat.le_zero.mp short)] at read ⊢
    cases spelled d [] r v read with
    | scalar _ _ _ x plain found => exact plain_skipped 0 [] r x plain found
    | list d s text r vs opened items => cases opened
    | object d s text r ms opened entries => cases opened
  | succ n ih =>
    intro s r v short read
    have begun := length_skipSpace_le s
    cases spelled d s r v read with
    | scalar d s r x plain found => exact plain_skipped (n + 1) s r x plain found
    | list d s text r vs opened items =>
        rw [opened, List.length_cons] at begun
        obtain ⟨us, passed⟩ := items_skipped n _ _ kept kept_spared (ih d) true text r vs items (by omega)
        change bracketed _ _ _ s = _
        rw [bracketed_list _ _ _ s text opened, passed]
        rfl
    | object d s text r ms opened entries =>
        rw [opened, List.length_cons] at begun
        have value := colon_skipped n _ _ (ih d)
        have read := (members_iff _ (fun ms k v => ms ++ [(k, v)]) [] _ true text r).mpr ⟨ms, entries, rfl⟩
        have passed := members_skipped n _ kept kept_spared _ (fun acc k => map_skipped n _ _ _ value)
          [] _ true text r read (by omega)
        change bracketed _ _ _ s = _
        rw [bracketed_object _ _ _ s text opened, passed]

theorem skip_written (d : Nat) (s r : List Char) (v : Value) (read : (asWritten d).run s = .ok (v, r)) :
    skip.run s = .ok ((), r) :=
  depth_skipped s.length d s r v (Nat.le_refl _) read

end DarkDrop.Json
