import DarkDrop.Proofs.Json.Layout

namespace DarkDrop.Json

theorem word_found (w s r : List Char) (read : word w s = .ok r) : s = w ++ r := by
  induction w generalizing s with
  | nil => exact Except.ok.inj read
  | cons c w ih =>
      cases s with
      | nil => cases read
      | cons d s =>
          rw [word] at read
          split at read
          · rename_i same
            rw [same, ih s read, List.cons_append]
          · cases read

theorem digits_found (eof bad : Fault) (s r ds : List Char) (read : someDigits eof bad s = .ok (ds, r)) :
    Digits ds ∧ s = ds ++ r := by
  cases s with
  | nil => cases read
  | cons c s =>
      rw [someDigits] at read
      split at read
      · rename_i digit
        cases read
        refine ⟨⟨?_, fun d member => (List.mem_takeWhile_imp member)⟩, (List.takeWhile_append_dropWhile).symm⟩
        simp [digit]
      · cases read

theorem whole_found (eof : Fault) (s r w : List Char) (read : wholeDigits eof s = .ok (w, r)) :
    Whole w ∧ s = w ++ r := by
  rw [wholeDigits.eq_def] at read
  split at read
  · split at read
    · cases read
    · cases read
      exact ⟨⟨⟨by simp, by simp⟩, fun _ => rfl⟩, rfl⟩
  · rename_i other
    obtain ⟨digits, rfl⟩ := digits_found _ _ s r w read
    refine ⟨⟨digits, fun zero => ?_⟩, rfl⟩
    obtain ⟨ds, rfl⟩ := List.head?_eq_some_iff.mp zero
    cases ds with
    | nil => rfl
    | cons d ds => exact absurd rfl (other d (ds ++ r))

theorem fraction_found (eof : Fault) (s r ds : List Char) (read : fractionDigits eof s = .ok (ds, r)) :
    ∃ f, Fraction f ∧ s = f ++ r := by
  rw [fractionDigits.eq_def] at read
  split at read
  · obtain ⟨digits, rfl⟩ := digits_found _ _ _ r ds read
    exact ⟨'.' :: ds, .inr ⟨ds, digits, rfl⟩, rfl⟩
  · cases read
    exact ⟨[], .inl rfl, rfl⟩

theorem sign_found (s : List Char) : ∃ sign ∈ [[], ['+'], ['-']], s = sign ++ (exponentSign s).2 := by
  rw [exponentSign.eq_def]
  split
  · exact ⟨['+'], by simp, rfl⟩
  · exact ⟨['-'], by simp, rfl⟩
  · exact ⟨[], by simp, rfl⟩

theorem exponent_found (eof : Fault) (s r : List Char) (x : Option (Bool × List Char))
    (read : exponentDigits eof s = .ok (x, r)) : ∃ e, Exponent e ∧ s = e ++ r := by
  cases s with
  | nil =>
      cases read
      exact ⟨[], .inl rfl, rfl⟩
  | cons c s =>
      simp only [exponentDigits] at read
      split at read
      · rename_i letter
        obtain ⟨⟨ds, left⟩, taken, same⟩ := map_eq_ok read
        cases same
        obtain ⟨digits, behind⟩ := digits_found _ _ _ left ds taken
        obtain ⟨sign, signed, split⟩ := sign_found s
        refine ⟨c :: (sign ++ ds), .inr ⟨c, by simpa using letter, sign, signed, ds, digits, rfl⟩, ?_⟩
        rw [List.cons_append, List.append_assoc, ← behind, ← split]
      · cases read
        exact ⟨[], .inl rfl, rfl⟩

theorem numeral_found (eof : Fault) (negative : Bool) (s r : List Char) (n : Numeral)
    (read : numeral eof negative s = .ok (n, r)) :
    ∃ whole fraction exponent, Whole whole ∧ Fraction fraction ∧ Exponent exponent ∧
      s = whole ++ (fraction ++ exponent) ++ r := by
  simp only [numeral, bound_ok] at read
  obtain ⟨⟨w, behind⟩, first, ⟨ds, left⟩, second, ⟨x, rest⟩, third, same⟩ := read
  cases same
  obtain ⟨whole, rfl⟩ := whole_found eof s behind w first
  obtain ⟨f, fraction, same⟩ := fraction_found eof behind left ds second
  obtain ⟨e, exponent, behind⟩ := exponent_found eof left _ x third
  exact ⟨w, f, e, whole, fraction, exponent, by rw [same, behind]; simp⟩

theorem hex_found (c : Char) (n : Nat) (read : hexValue c = some n) : isHex c := by
  rw [hexValue] at read
  rw [isHex]
  split_ifs at read with digit lower upper
  · simp [digit]
  · simp [lower]
  · simp [upper]

theorem unit_found (s r : List Char) (u : Nat) (read : codeUnit s = .ok (u, r)) :
    ∃ w x y z, (isHex w && isHex x && isHex y && isHex z) = true ∧ s = w :: x :: y :: z :: r := by
  rw [codeUnit] at read
  split at read
  · rename_i found
    cases read
    rw [fourHex.eq_def] at found
    split at found
    · rename_i a b c d rest
      split at found
      · rename_i w x y z first second third fourth
        cases found
        refine ⟨a, b, c, d, ?_, rfl⟩
        simp [hex_found a w first, hex_found b x second, hex_found c y third, hex_found d z fourth]
      · cases found
    · cases found
  · split at read <;> cases read

theorem letter_known (c d : Char) (read : letterEscape c = some d) :
    c ∈ ['"', '\\', '/', 'b', 'f', 'n', 'r', 't'] := by
  rw [letterEscape.eq_def] at read
  split at read
  case h_9 => cases read
  all_goals simp

theorem escape_found (s r body : List Char) (read : skipEscape s = .ok (body ++ r)) (valid : Body body) :
    ∃ used, Body used ∧ '\\' :: s = used ++ r := by
  cases s with
  | nil => cases read
  | cons c s =>
      rw [skipEscape] at read
      split at read
      · rename_i unit
        obtain ⟨⟨u, left⟩, taken, same⟩ := map_eq_ok read
        cases same
        obtain ⟨w, x, y, z, hex, rfl⟩ := unit_found s _ u taken
        exact ⟨_, .unit w x y z body hex valid, by rw [unit]; rfl⟩
      · split at read
        · rename_i d letter
          cases read
          exact ⟨_, .letter c body (letter_known c d letter) valid, rfl⟩
        · cases read

theorem body_found (s r : List Char) (read : skipString s = .ok r) : ∃ body, Body body ∧ s = body ++ '"' :: r := by
  fun_induction skipString s generalizing r with
  | case1 => cases read
  | case2 rest =>
      cases read
      exact ⟨[], .nil, rfl⟩
  | case3 => cases read
  | case4 s _ escaped _ _ ih =>
      obtain ⟨body, valid, rfl⟩ := ih r read
      exact escape_found s ('"' :: r) body escaped valid
  | case5 => cases read
  | case6 c s quote slash visible ih =>
      obtain ⟨body, valid, rfl⟩ := ih r read
      exact ⟨c :: body, .plain c body quote slash visible valid, rfl⟩

theorem number_found (s r : List Char) (read : skipNumber s = .ok r) :
    ∃ whole fraction exponent, Whole whole ∧ Fraction fraction ∧ Exponent exponent ∧
      s = whole ++ (fraction ++ exponent) ++ r := by
  obtain ⟨⟨n, rest⟩, taken, same⟩ := map_eq_ok read
  cases same
  exact numeral_found _ _ s rest n taken

theorem scalar_found (s r : List Char) (read : skipScalar s = .ok ((), r)) :
    ∃ lexeme, Lexeme lexeme ∧ s = lexeme ++ r := by
  have word_lexeme (c : Char) (w s : List Char) (known : c :: w ∈ [['n', 'u', 'l', 'l'], ['t', 'r', 'u', 'e'],
      ['f', 'a', 'l', 's', 'e']]) (taken : word w s = .ok r) : ∃ lexeme, Lexeme lexeme ∧ c :: s = lexeme ++ r :=
    ⟨c :: w, .word _ known, by rw [word_found w s r taken, List.cons_append]⟩
  have number_lexeme (sign s : List Char) (known : sign ∈ [[], ['-']]) (taken : skipNumber s = .ok r) :
      ∃ lexeme, Lexeme lexeme ∧ sign ++ s = lexeme ++ r := by
    obtain ⟨w, f, e, whole, fraction, exponent, rfl⟩ := number_found s r taken
    exact ⟨_, .number sign w f e known whole fraction exponent, by simp⟩
  cases s with
  | nil => cases read
  | cons c s =>
      rw [skipScalar] at read
      split_ifs at read with null yes no quote minus digit
      all_goals obtain ⟨rest, taken, same⟩ := map_eq_ok read
      all_goals cases same
      · exact word_lexeme c _ s (by simp [null]) taken
      · exact word_lexeme c _ s (by simp [yes]) taken
      · exact word_lexeme c _ s (by simp [no]) taken
      · obtain ⟨body, valid, rfl⟩ := body_found s r taken
        exact ⟨_, .text body valid, by simp [quote]⟩
      · rw [minus]
        exact number_lexeme ['-'] s (by simp) taken
      · exact number_lexeme [] (c :: s) (by simp) taken

theorem laid_space (token s : List Char) (tokens : List (List Char)) (laid : Laid (token :: tokens) (skipSpace s)) :
    Laid (token :: tokens) s := by
  have whole : s.takeWhile isSpace ++ skipSpace s = s := List.takeWhile_append_dropWhile
  generalize skipSpace s = u at laid whole
  cases laid with
  | token space _ rest _ blank later =>
      rw [← whole, ← List.append_assoc]
      apply Laid.token _ token rest tokens _ later
      rw [List.forall_mem_append]
      exact ⟨fun c member => List.mem_takeWhile_imp member, blank⟩

theorem laid_tree_space (t : Tree) (valid : t.Valid) (tokens : List (List Char)) (s : List Char)
    (laid : Laid (t.tokens ++ tokens) (skipSpace s)) : Laid (t.tokens ++ tokens) s := by
  obtain ⟨c, token, later, starts, _⟩ := tree_starts t valid
  rw [starts] at laid ⊢
  exact laid_space _ s _ laid

theorem laid_mark (c : Char) (s r : List Char) (tokens : List (List Char)) (starts : skipSpace s = c :: r)
    (laid : Laid tokens r) : Laid ([c] :: tokens) s := by
  apply laid_space
  rw [starts]
  exact .token [] [c] r tokens (List.forall_mem_nil _) laid

theorem element_last (first : Bool) (s r : List Char) (next : nextElement skipped first s = .ok (false, r)) :
    skipSpace s = ']' :: r := by
  rw [nextElement] at next
  split at next
  · cases next
  · rename_i bracket
    cases next
    exact bracket
  · split at next
    · cases next
    · split at next
      · split at next
        · cases next
        · split at next <;> cases next
      · cases next

theorem element_found (first : Bool) (s text : List Char) (next : nextElement skipped first s = .ok (true, text)) :
    if first then text = skipSpace s else ∃ rest, skipSpace s = ',' :: rest ∧ text = skipSpace rest := by
  rw [nextElement] at next
  split at next
  · cases next
  · cases next
  · rename_i starts
    split at next
    · rename_i first
      cases next
      rw [if_pos first, starts]
    · rename_i later
      rw [if_neg later]
      split at next
      · rename_i comma
        split at next
        · cases next
        · rename_i behind
          split at next
          · cases next
          · cases next
            exact ⟨_, by rw [starts, comma], behind.symm⟩
      · cases next

theorem key_last (first : Bool) (s r : List Char) (next : nextKey skipped first s = .ok (none, r)) :
    skipSpace s = '}' :: r := by
  have keyed (t : List Char) : (skipped.key t).map (fun p => (some p.1, p.2)) ≠ .ok (none, r) := by
    intro read
    obtain ⟨_, _, same⟩ := map_eq_ok read
    cases same
  rw [nextKey] at next
  split at next
  · cases next
  · rename_i brace
    cases next
    exact brace
  · split at next
    · split at next
      · exact absurd next (keyed _)
      · cases next
    · split at next
      · split at next
        · cases next
        · exact absurd next (keyed _)
        · cases next
        · cases next
      · cases next

theorem key_found (first : Bool) (s text : List Char) (k : String)
    (next : nextKey skipped first s = .ok (some k, text)) : ∃ body rest, Body body ∧
      skipSpace rest = '"' :: (body ++ '"' :: text) ∧ if first then rest = s else skipSpace s = ',' :: rest := by
  have keyed (t : List Char) (read : (skipped.key t).map (fun p => (some p.1, p.2)) = .ok (some k, text)) :
      ∃ body, Body body ∧ t = body ++ '"' :: text := by
    obtain ⟨⟨_, left⟩, taken, same⟩ := map_eq_ok read
    cases same
    obtain ⟨_, passed, same⟩ := map_eq_ok taken
    cases same
    exact body_found t _ passed
  rw [nextKey] at next
  split at next
  · cases next
  · cases next
  · rename_i starts
    split at next
    · rename_i first
      split at next
      · rename_i quote
        obtain ⟨body, valid, rfl⟩ := keyed _ next
        exact ⟨body, s, valid, by rw [starts, quote], by rw [if_pos first]⟩
      · cases next
    · rename_i later
      split at next
      · rename_i comma
        split at next
        · cases next
        · rename_i quote
          obtain ⟨body, valid, rfl⟩ := keyed _ next
          exact ⟨body, _, valid, quote, by rw [if_neg later, starts, comma]⟩
        · cases next
        · cases next
      · cases next

def Parses (rd : Reader Unit) : Prop :=
  ∀ s r, rd.run s = .ok ((), r) → ∃ t : Tree, t.Valid ∧ ∀ tokens, Laid tokens r → Laid (t.tokens ++ tokens) s

section

variable (rd : Reader Unit) (parses : Parses rd)
include parses

theorem elements_found (first : Bool) (s r : List Char) (us : List Unit) (items : Items skipped rd first s us r) :
    ∃ ts : List Tree, (∀ t ∈ ts, t.Valid) ∧ ∀ tokens, Laid tokens r →
      Laid ((if first then (Tree.elementTokens ts).tail else Tree.elementTokens ts) ++ [']'] :: tokens) s := by
  induction items with
  | closed first s r next =>
      refine ⟨[], List.forall_mem_nil _, fun tokens laid => ?_⟩
      cases first <;> exact laid_mark ']' s r tokens (element_last _ s r next) laid
  | item first s text rest r u us next read _ ih =>
      obtain ⟨t, valid, here⟩ := parses text rest read
      obtain ⟨ts, each, others⟩ := ih
      refine ⟨t :: ts, List.forall_mem_cons.mpr ⟨valid, each⟩, fun tokens laid => ?_⟩
      have later := here _ (others tokens laid)
      have found := element_found first s text next
      cases first with
      | true =>
          rw [if_pos rfl] at found ⊢
          rw [found] at later
          rw [Tree.elementTokens, List.tail_cons, List.append_assoc]
          exact laid_tree_space t valid _ s later
      | false =>
          rw [if_neg Bool.false_ne_true] at found ⊢
          obtain ⟨inside, comma, rfl⟩ := found
          rw [Tree.elementTokens, List.cons_append, List.append_assoc]
          exact laid_mark ',' s inside _ comma (laid_tree_space t valid _ inside later)

theorem members_found (first : Bool) (s r : List Char)
    (read : members skipped (fun _ _ => afterColon rd) () first s = .ok ((), r)) :
    ∃ ms : List (List Char × Tree), (∀ m ∈ ms, Body m.1) ∧ (∀ m ∈ ms, m.2.Valid) ∧ ∀ tokens, Laid tokens r →
      Laid ((if first then (Tree.memberTokens ms).tail else Tree.memberTokens ms) ++ ['}'] :: tokens) s := by
  induction left : s.length using Nat.strong_induction_on generalizing first s with
  | _ n ih =>
  obtain ⟨closed, _⟩ | ⟨k, text, _, rest, next, taken, others⟩ := members_turn skipped _ () () first s r read
  · refine ⟨[], List.forall_mem_nil _, List.forall_mem_nil _, fun tokens laid => ?_⟩
    cases first <;> exact laid_mark '}' s r tokens (key_last _ s r closed) laid
  · have begun := nextKey_le next
    have shorter := (afterColon rd).shorter taken
    obtain ⟨ms, bodies, each, later⟩ := ih rest.length (by omega) false rest others rfl
    obtain ⟨inside, colon, value⟩ := (after_colon rd text rest ()).mp taken
    obtain ⟨t, valid, here⟩ := parses inside rest value
    obtain ⟨name, start, body, quote, before⟩ := key_found first s text k next
    refine ⟨(name, t) :: ms, List.forall_mem_cons.mpr ⟨body, bodies⟩, List.forall_mem_cons.mpr ⟨valid, each⟩,
      fun tokens laid => ?_⟩
    have valued := laid_mark ':' text inside _ colon (here _ (later tokens laid))
    have named :
        Laid (('"' :: (name ++ ['"'])) :: [':'] :: (t.tokens ++ (Tree.memberTokens ms ++ ['}'] :: tokens))) start := by
      apply laid_space
      have parted : '"' :: (name ++ '"' :: text) = [] ++ ('"' :: (name ++ ['"']) ++ text) := by simp
      rw [quote, parted]
      exact .token [] _ text _ (List.forall_mem_nil _) valued
    cases first with
    | true =>
        rw [if_pos rfl] at before ⊢
        subst before
        simpa only [Tree.memberTokens, List.tail_cons, List.cons_append, List.append_assoc] using named
    | false =>
        rw [if_neg Bool.false_ne_true] at before ⊢
        simpa only [Tree.memberTokens, List.cons_append, List.append_assoc] using laid_mark ',' s start _ before named

end

theorem plain_parses (s r : List Char) (read : skipScalar (skipSpace s) = .ok ((), r)) :
    ∃ t : Tree, t.Valid ∧ ∀ tokens, Laid tokens r → Laid (t.tokens ++ tokens) s := by
  obtain ⟨lexeme, valid, split⟩ := scalar_found _ r read
  refine ⟨.leaf lexeme, .leaf _ valid, fun tokens laid => laid_space lexeme s tokens ?_⟩
  rw [split]
  exact .token [] lexeme r tokens (List.forall_mem_nil _) laid

theorem depth_parses (d : Nat) : Parses (skipTo d) := by
  induction d with
  | zero =>
      intro s r read
      obtain ⟨text, opened⟩ | ⟨text, opened⟩ | plain := bracket_cases s
      · change bracketed _ _ _ s = _ at read
        rw [bracketed_list _ _ _ s text opened] at read
        cases read
      · change bracketed _ _ _ s = _ at read
        rw [bracketed_object _ _ _ s text opened] at read
        cases read
      · exact plain_parses s r (skip_plain 0 s plain ▸ read)
  | succ d ih =>
      intro s r read
      obtain ⟨text, opened⟩ | ⟨text, opened⟩ | plain := bracket_cases s
      · rw [skip_opened d s text opened] at read
        obtain ⟨⟨us, rest⟩, items, same⟩ := map_eq_ok read
        cases same
        obtain ⟨ts, valid, later⟩ := elements_found _ ih true text _ us ((elements_iff _ _ _ _ _ _).mp items)
        refine ⟨.list ts, .list ts valid, fun tokens laid => ?_⟩
        have inside := later tokens laid
        rw [if_pos rfl] at inside
        simpa only [Tree.tokens, List.cons_append, List.append_assoc, List.nil_append] using
          laid_mark '[' s text _ opened inside
      · rw [skip_keyed d s text opened] at read
        obtain ⟨ms, bodies, valid, later⟩ := members_found _ ih true text r read
        refine ⟨.object ms, .object ms bodies valid, fun tokens laid => ?_⟩
        have inside := later tokens laid
        rw [if_pos rfl] at inside
        simpa only [Tree.tokens, List.cons_append, List.append_assoc, List.nil_append] using
          laid_mark '{' s text _ opened inside
      · exact plain_parses s r (skip_plain (d + 1) s plain ▸ read)

theorem skipped_iff_laid (text : List Char) :
    (∃ r, skip.run text = .ok ((), r) ∧ skipSpace r = []) ↔ ∃ t : Tree, t.Valid ∧ Laid t.tokens text := by
  constructor
  · rintro ⟨r, read, ended⟩
    obtain ⟨t, valid, laid⟩ := depth_parses text.length text r read
    refine ⟨t, valid, ?_⟩
    rw [← List.append_nil t.tokens]
    exact laid [] (.done r (List.dropWhile_eq_nil_iff.mp ended))
  · rintro ⟨t, valid, laid⟩
    rw [← List.append_nil t.tokens] at laid
    obtain ⟨r, behind, read⟩ := skip_renders t valid [] text laid nofun
    exact ⟨r, (read () r).mpr ⟨rfl, rfl⟩, laid_done r behind⟩

end DarkDrop.Json
