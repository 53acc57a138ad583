import DarkDrop.Proofs.Json.ScalarText
import Mathlib.Data.List.Forall2

namespace DarkDrop.Json
open Text

def Reads {α : Type} (rd : Reader α) (text : List Char) (a : α) : Prop :=
  ∀ rest, Stops rest → rd.run (text ++ rest) = .ok (a, rest)

def Opens (text : List Char) : Prop :=
  ∃ c s, text = c :: s ∧ isSpace c = false ∧ c ≠ ']'

theorem skip_space_opens (c : Char) (s : List Char) (solid : isSpace c = false) :
    skipSpace (c :: s) = c :: s := by
  rw [skipSpace, List.dropWhile_cons, if_neg (by simp [solid])]

theorem scalar_opens (s : Scalar) (plain : s.Plain) :
    ∃ c cs, s.write = c :: cs ∧ isSpace c = false ∧ c ≠ '[' ∧ c ≠ '{' ∧ c ≠ ']' ∧
      (c = 'n' → s = .null) := by
  cases s with
  | null => exact ⟨_, _, rfl, by decide⟩
  | bool b => cases b <;> exact ⟨_, _, rfl, by decide⟩
  | text t => exact ⟨_, _, rfl, by decide, by decide, by decide, by decide, fun null => absurd null (by decide)⟩
  | number n =>
      cases n with
      | minus n => exact plain.elim
      | real negative x => exact plain.elim
      | whole n =>
          obtain ⟨d, ds, head, digit⟩ := digit_starts n.toNat
          have other (c : Char) (letter : c.isDigit = false) : d ≠ c := digit_other d c digit letter
          refine ⟨d, ds, head, ?_, other _ rfl, other _ rfl, other _ rfl,
            fun null => (other 'n' rfl null).elim⟩
          simp [isSpace, other ' ' rfl, other '\t' rfl, other '\n' rfl, other '\r' rfl]

-- The first character decides which of the three readers is taken.
theorem bracketed_scalar {α : Type} (list object other : List Char → Except Fault (α × List Char))
    (s : Scalar) (rest : List Char) (plain : s.Plain) :
    bracketed list object other (s.write ++ rest) = other (s.write ++ rest) := by
  obtain ⟨c, cs, head, solid, square, brace, _⟩ := scalar_opens s plain
  rw [head, List.cons_append, bracketed, skip_space_opens c _ solid]
  split
  · rename_i same
    exact absurd (List.cons.inj same).1 square
  · rename_i same
    exact absurd (List.cons.inj same).1 brace
  · rfl

theorem next_first (text : List Char) (opens : Opens text) :
    nextElement kept true text = .ok (true, text) := by
  obtain ⟨c, s, rfl, solid, square⟩ := opens
  rw [nextElement, skip_space_opens c s solid]
  split
  · rename_i same
    cases same
  · rename_i same
    exact absurd (List.cons.inj same).1 square
  · rename_i same
    rw [if_pos rfl, same]

theorem next_later (text : List Char) (opens : Opens text) :
    nextElement kept false (',' :: text) = .ok (true, text) := by
  obtain ⟨c, s, rfl, solid, square⟩ := opens
  rw [nextElement, skip_space_opens ',' _ (by decide)]
  split
  · rename_i none
    cases none
  · rename_i ended
    cases ended
  · rename_i comma rest _ same
    cases same
    rw [if_neg (by decide), if_pos rfl, skip_space_opens c s solid]
    simp only
    split
    · exact (square rfl).elim
    · rfl

theorem opens_append (text rest : List Char) (opens : Opens text) : Opens (text ++ rest) := by
  obtain ⟨c, s, rfl, solid, square⟩ := opens
  exact ⟨c, s ++ rest, rfl, solid, square⟩

theorem elements_closed {α : Type} (manner : Manner) (rd : Reader α) (first : Bool) (s r : List Char)
    (next : nextElement manner first s = .ok (false, r)) : elements manner rd first s = .ok ([], r) := by
  rw [elements]
  split
  · rename_i failed
    rw [next] at failed
    cases failed
  · rename_i ended
    rw [next] at ended
    cases ended
    rfl
  · rename_i more
    rw [next] at more
    cases more

theorem elements_end {α : Type} (rd : Reader α) (first : Bool) (rest : List Char) :
    elements kept rd first (']' :: rest) = .ok ([], rest) :=
  elements_closed kept rd first (']' :: rest) rest rfl

theorem elements_step {manner : Manner} {α : Type} (rd : Reader α) (first : Bool)
    (s text rest left : List Char) (a : α) (as : List α)
    (next : nextElement manner first s = .ok (true, text)) (read : rd.run text = .ok (a, rest))
    (later : elements manner rd false rest = .ok (as, left)) :
    elements manner rd first s = .ok (a :: as, left) := by
  rw [elements]
  split
  · rename_i failed
    rw [next] at failed
    cases failed
  · rename_i ended
    rw [next] at ended
    cases ended
  · rename_i text' more
    rw [next] at more
    cases more
    split
    · rename_i failed
      rw [read] at failed
      cases failed
    · rename_i taken
      rw [read] at taken
      cases taken
      simp only [later]

theorem rest_stops (vs : List Value) (rest : List Char) : Stops (writeRest vs ++ ']' :: rest) := by
  cases vs with
  | nil => exact .inr (.inl rfl)
  | cons v vs => exact .inl rfl

def Element {α : Type} (rd : Reader α) (v : Value) (a : α) : Prop :=
  Opens v.write ∧ Reads rd v.write a

theorem rest_written {α : Type} (rd : Reader α) (vs : List Value) (as : List α)
    (each : List.Forall₂ (Element rd) vs as) (rest : List Char) :
    elements kept rd false (writeRest vs ++ ']' :: rest) = .ok (as, rest) := by
  induction each with
  | nil => exact elements_end rd false rest
  | @cons v a vs as first others ih =>
      have opens := opens_append v.write (writeRest vs ++ ']' :: rest) first.1
      rw [writeRest, List.append_assoc]
      exact elements_step rd false _ _ _ rest a as (next_later _ opens)
        (first.2 _ (rest_stops vs rest)) ih

theorem list_written {α : Type} (rd : Reader α) (vs : List Value) (as : List α)
    (each : List.Forall₂ (Element rd) vs as) (rest : List Char) :
    ∃ inside, (Value.list vs).write ++ rest = '[' :: inside ∧
      elements kept rd true inside = .ok (as, rest) := by
  cases each with
  | nil => exact ⟨_, rfl, elements_end rd true rest⟩
  | @cons v a vs as first others =>
      have opens := opens_append v.write (writeRest vs ++ ']' :: rest) first.1
      refine ⟨v.write ++ (writeRest vs ++ ']' :: rest), by simp [Value.write], ?_⟩
      exact elements_step rd true _ _ _ rest a as (next_first _ opens)
        (first.2 _ (rest_stops vs rest)) (rest_written rd vs as others rest)

inductive Fills {σ : Type} (step : σ → String → Reader σ) : σ → List (String × Value) → σ → Prop where
  | done (acc : σ) : Fills step acc [] acc
  | member (acc next last : σ) (k : String) (v : Value) (ms : List (String × Value))
      (read : Reads (step acc k) (':' :: v.write) next) (later : Fills step next ms last) :
      Fills step acc ((k, v) :: ms) last

theorem kept_key (k : String) (rest : List Char) :
    kept.key (k.toList.flatMap writtenChar ++ '"' :: rest) = .ok (k, rest) := by
  change (stringBody _).map _ = _
  rw [written_body]
  simp [Except.map]

theorem next_key_first (k : String) (rest : List Char) :
    nextKey kept true (writtenString k ++ rest) = .ok (some k, rest) := by
  rw [written_string]
  change (kept.key _).map _ = _
  rw [kept_key]
  rfl

theorem next_key_later (k : String) (rest : List Char) :
    nextKey kept false (',' :: (writtenString k ++ rest)) = .ok (some k, rest) := by
  rw [written_string]
  change (kept.key _).map _ = _
  rw [kept_key]
  rfl

theorem members_closed {σ : Type} (manner : Manner) (step : σ → String → Reader σ) (acc : σ)
    (first : Bool) (s r : List Char) (next : nextKey manner first s = .ok (none, r)) :
    members manner step acc first s = .ok (acc, r) := by
  rw [members]
  split
  · rename_i failed
    rw [next] at failed
    cases failed
  · rename_i ended
    rw [next] at ended
    cases ended
    rfl
  · rename_i more
    rw [next] at more
    cases more

theorem members_end {σ : Type} (step : σ → String → Reader σ) (acc : σ) (first : Bool)
    (rest : List Char) : members kept step acc first ('}' :: rest) = .ok (acc, rest) :=
  members_closed kept step acc first ('}' :: rest) rest rfl

theorem members_step {manner : Manner} {σ : Type} (step : σ → String → Reader σ) (acc next last : σ)
    (first : Bool) (k : String) (s text rest left : List Char)
    (key : nextKey manner first s = .ok (some k, text)) (read : (step acc k).run text = .ok (next, rest))
    (later : members manner step next false rest = .ok (last, left)) :
    members manner step acc first s = .ok (last, left) := by
  rw [members]
  split
  · rename_i failed
    rw [key] at failed
    cases failed
  · rename_i ended
    rw [key] at ended
    cases ended
  · rename_i k' text' more
    rw [key] at more
    cases more
    split
    · rename_i failed
      rw [read] at failed
      cases failed
    · rename_i taken
      rw [read] at taken
      cases taken
      exact later

theorem members_stop (ms : List (String × Value)) (rest : List Char) :
    Stops (writeMembers ms ++ '}' :: rest) := by
  cases ms with
  | nil => exact .inr (.inr rfl)
  | cons m ms => exact .inl rfl

theorem members_written {σ : Type} (step : σ → String → Reader σ) (acc last : σ)
    (ms : List (String × Value)) (fills : Fills step acc ms last) (rest : List Char) :
    members kept step acc false (writeMembers ms ++ '}' :: rest) = .ok (last, rest) := by
  induction fills with
  | done acc => exact members_end step acc false rest
  | member acc next last k v ms read _ ih =>
      have value := read _ (members_stop ms rest)
      have text : writeMembers ((k, v) :: ms) ++ '}' :: rest =
          ',' :: (writtenString k ++ (':' :: v.write ++ (writeMembers ms ++ '}' :: rest))) := by
        simp [writeMembers]
      rw [text]
      exact members_step step acc next last false k _ _ _ rest (next_key_later k _) value ih

theorem object_written {σ : Type} (step : σ → String → Reader σ) (acc last : σ)
    (ms : List (String × Value)) (fills : Fills step acc ms last) (rest : List Char) :
    ∃ inside, (Value.object ms).write ++ rest = '{' :: inside ∧
      members kept step acc true inside = .ok (last, rest) := by
  cases fills with
  | done => exact ⟨_, rfl, members_end step acc true rest⟩
  | member _ next _ k v ms read later =>
      have value := read _ (members_stop ms rest)
      refine ⟨writtenString k ++ (':' :: v.write ++ (writeMembers ms ++ '}' :: rest)),
        by simp [Value.write], ?_⟩
      exact members_step step acc next last true k _ _ _ rest (next_key_first k _) value
        (members_written step next last ms later rest)

theorem colon_reads {α : Type} (rd : Reader α) (text : List Char) (a : α) (reads : Reads rd text a) :
    Reads (afterColon rd) (':' :: text) a := by
  intro rest stops
  change rd.run (text ++ rest) = _
  exact reads rest stops

theorem map_reads {α β : Type} (rd : Reader α) (f : α → β) (text : List Char) (a : α)
    (reads : Reads rd text a) : Reads (rd.map f) text (f a) := by
  intro rest stops
  simp only [Reader.map, reads rest stops]

mutual

def Value.sorted : Value → Value
  | .scalar s => .scalar s
  | .list vs => .list (sortedList vs)
  | .object ms => .object (sortedMembers [] ms)

def sortedList : List Value → List Value
  | [] => []
  | v :: vs => v.sorted :: sortedList vs

def sortedMembers (acc : List (String × Value)) : List (String × Value) → List (String × Value)
  | [] => acc
  | (k, v) :: ms => sortedMembers (setMember k v.sorted acc) ms

end

inductive Fits : Nat → Value → Prop where
  | scalar (d : Nat) (s : Scalar) (plain : s.Plain) : Fits d (.scalar s)
  | list (d : Nat) (vs : List Value) (each : ∀ v ∈ vs, Fits d v) : Fits (d + 1) (.list vs)
  | object (d : Nat) (ms : List (String × Value)) (each : ∀ m ∈ ms, Fits d m.2) :
      Fits (d + 1) (.object ms)

theorem fits_opens (d : Nat) (v : Value) (fits : Fits d v) : Opens v.write := by
  cases fits with
  | scalar _ s plain =>
      obtain ⟨c, cs, head, solid, _, _, square, _⟩ := scalar_opens s plain
      exact ⟨c, cs, by rw [Value.write, head], solid, square⟩
  | list d vs _ => cases vs <;> exact ⟨_, _, rfl, by decide, by decide⟩
  | object d ms _ =>
      cases ms with
      | nil => exact ⟨_, _, rfl, by decide, by decide⟩
      | cons m ms => exact ⟨_, _, rfl, by decide, by decide⟩

theorem list_reads (d : Nat) (vs : List Value)
    (each : ∀ v ∈ vs, Opens v.write ∧ Reads (any d) v.write v.sorted) :
    List.Forall₂ (Element (any d)) vs (sortedList vs) := by
  induction vs with
  | nil => exact .nil
  | cons v vs ih => exact .cons (each v (by simp)) (ih fun w member => each w (by simp [member]))

theorem members_fill (d : Nat) (acc ms : List (String × Value))
    (each : ∀ m ∈ ms, Reads (any d) m.2.write m.2.sorted) :
    Fills (fun acc k => (afterColon (any d)).map (setMember k · acc)) acc ms
      (sortedMembers acc ms) := by
  induction ms generalizing acc with
  | nil => exact .done acc
  | cons m ms ih =>
      obtain ⟨k, v⟩ := m
      have value := colon_reads (any d) v.write v.sorted (each (k, v) (by simp))
      exact .member acc _ _ k v ms (map_reads _ _ _ _ value)
        (ih (setMember k v.sorted acc) fun m member => each m (by simp [member]))

theorem any_written (d : Nat) (v : Value) (fits : Fits d v) : Reads (any d) v.write v.sorted := by
  induction fits with
  | scalar d s plain =>
      intro rest stops
      have read := scalar_written s rest plain stops
      cases d with
      | zero =>
          change bracketed _ _ _ (s.write ++ rest) = _
          rw [bracketed_scalar _ _ _ s rest plain, read]
          rfl
      | succ d =>
          change bracketed _ _ _ (s.write ++ rest) = _
          rw [bracketed_scalar _ _ _ s rest plain, read]
          rfl
  | list d vs each ih =>
      intro rest _
      obtain ⟨inside, text, read⟩ := list_written (any d) vs (sortedList vs)
        (list_reads d vs fun v member => ⟨fits_opens d v (each v member), ih v member⟩) rest
      rw [text, any]
      change (elements kept (any d) true inside).map _ = _
      rw [read]
      rfl
  | object d ms each ih =>
      intro rest _
      obtain ⟨inside, text, read⟩ := object_written _ [] (sortedMembers [] ms) ms
        (members_fill d [] ms ih) rest
      rw [text, any]
      change (members kept _ [] true inside).map _ = _
      rw [read]
      rfl

end DarkDrop.Json
