import DarkDrop.Proofs.Json.Lexeme
import DarkDrop.Proofs.Json.Outline

namespace DarkDrop.Json

inductive Tree where
  | leaf (lexeme : List Char)
  | list (ts : List Tree)
  | object (ms : List (List Char × Tree))

namespace Tree

inductive Valid : Tree → Prop where
  | leaf (lexeme : List Char) (valid : Lexeme lexeme) : Valid (.leaf lexeme)
  | list (ts : List Tree) (each : ∀ t ∈ ts, Valid t) : Valid (.list ts)
  | object (ms : List (List Char × Tree)) (names : ∀ m ∈ ms, Body m.1) (each : ∀ m ∈ ms, Valid m.2) :
      Valid (.object ms)

mutual

def tokens : Tree → List (List Char)
  | .leaf lexeme => [lexeme]
  | .list ts => ['['] :: ((elementTokens ts).tail ++ [[']']])
  | .object ms => ['{'] :: ((memberTokens ms).tail ++ [['}']])

def elementTokens : List Tree → List (List Char)
  | [] => []
  | t :: ts => [','] :: (t.tokens ++ elementTokens ts)

def memberTokens : List (List Char × Tree) → List (List Char)
  | [] => []
  | (name, t) :: ms => [','] :: ('"' :: (name ++ ['"'])) :: [':'] :: (t.tokens ++ memberTokens ms)

end

def pair? {α : Type} (f : Tree → Option α) (m : List Char × Tree) : Option (String × α) :=
  (name? m.1).bind fun k => (f m.2).map fun a => (k, a)

-- The value that a tree is kept as, to this depth: none if some part of it cannot be read or is too deep.
def value? : Nat → Tree → Option Value
  | _, .leaf lexeme => (scalar? lexeme).map .scalar
  | 0, _ => none
  | d + 1, .list ts => (ts.mapM (value? d)).map .list
  | d + 1, .object ms => (ms.mapM (pair? (value? d))).map .object

end Tree

inductive Laid : List (List Char) → List Char → Prop where
  | done (s : List Char) (blank : ∀ c ∈ s, isSpace c) : Laid [] s
  | token (space token s : List Char) (tokens : List (List Char)) (blank : ∀ c ∈ space, isSpace c)
      (later : Laid tokens s) : Laid (token :: tokens) (space ++ (token ++ s))

theorem laid_spaced (space : List Char) (blank : ∀ c ∈ space, isSpace c) (tokens : List (List Char)) :
    Laid tokens (tokens.flatMap (space ++ ·)) := by
  induction tokens with
  | nil => exact .done [] (List.forall_mem_nil _)
  | cons token tokens ih =>
      rw [List.flatMap_cons, List.append_assoc]
      exact .token space token _ tokens blank ih

theorem laid_done (s : List Char) (laid : Laid [] s) : skipSpace s = [] := by
  cases laid with
  | done _ blank => exact List.dropWhile_eq_nil_iff.mpr blank

theorem laid_token (c : Char) (token s : List Char) (tokens : List (List Char)) (solid : isSpace c = false)
    (laid : Laid ((c :: token) :: tokens) s) :
    ∃ rest, skipSpace s = c :: (token ++ rest) ∧ Laid tokens rest ∧ Laid ((c :: token) :: tokens) (skipSpace s) := by
  cases laid with
  | token space _ rest _ blank later =>
      have skipped : skipSpace (space ++ (c :: token ++ rest)) = c :: token ++ rest := by
        rw [skipSpace, List.dropWhile_append_of_pos blank]
        exact skip_space_opens c _ solid
      refine ⟨rest, skipped, later, ?_⟩
      rw [skipped]
      exact .token [] (c :: token) rest tokens (List.forall_mem_nil _) later

def Closing (tokens : List (List Char)) : Prop :=
  ∀ token later, tokens = token :: later → token = [','] ∨ token = [']'] ∨ token = ['}']

theorem laid_ends (tokens : List (List Char)) (s : List Char) (closing : Closing tokens) (laid : Laid tokens s) :
    Ends s := by
  rintro c r rfl
  have spaced (space : List Char) (rest : List Char) (same : c :: r = space ++ rest) (some : space ≠ [])
      (blank : ∀ c ∈ space, isSpace c) : isSpace c := by
    cases space with
    | nil => exact absurd rfl some
    | cons d space =>
        cases (List.cons.inj same).1
        exact blank c (by simp)
  generalize same : c :: r = s at laid
  cases laid with
  | done s blank =>
      subst same
      exact .inl (blank c (by simp))
  | token space token s tokens blank later =>
      by_cases none : space = []
      · subst none
        right
        rcases closing token tokens rfl with rfl | rfl | rfl
        · exact .inl (List.cons.inj same).1
        · exact .inr (.inl (List.cons.inj same).1)
        · exact .inr (.inr (List.cons.inj same).1)
      · exact .inl (spaced space _ same none blank)

def Renders {α : Type} (rd : Reader α) (t : Tree) (o : Option α) : Prop :=
  ∀ tokens s, Laid (t.tokens ++ tokens) s → Closing tokens →
    ∃ r, Laid tokens r ∧ ∀ a r', rd.run s = .ok (a, r') ↔ o = some a ∧ r' = r

theorem tree_starts (t : Tree) (valid : t.Valid) :
    ∃ c token tokens, t.tokens = (c :: token) :: tokens ∧ isSpace c = false ∧ c ≠ ']' := by
  cases valid with
  | leaf lexeme valid =>
      obtain ⟨c, s, rfl, solid, other⟩ := leaf_starts lexeme valid
      exact ⟨c, s, [], rfl, solid, by rintro rfl; exact other (by decide)⟩
  | list ts _ => exact ⟨'[', [], _, rfl, by decide, by decide⟩
  | object ms _ _ => exact ⟨'{', [], _, rfl, by decide, by decide⟩

section

variable (manner : Manner) (s r : List Char)

theorem element_over (first : Bool) (bracket : skipSpace s = ']' :: r) :
    nextElement manner first s = .ok (false, r) := by
  rw [nextElement, bracket]
  rfl

theorem element_opened (c : Char) (solid : c ≠ ']') (starts : skipSpace s = c :: r) :
    nextElement manner true s = .ok (true, c :: r) := by
  rw [nextElement, starts]
  split
  · rename_i none
    cases none
  · rename_i same
    exact absurd (List.cons.inj same).1 solid
  · rename_i same
    rw [if_pos rfl, same]

theorem element_more (text : List Char) (c : Char) (solid : c ≠ ']') (comma : skipSpace s = ',' :: text)
    (starts : skipSpace text = c :: r) : nextElement manner false s = .ok (true, c :: r) := by
  rw [nextElement, comma]
  split
  · rename_i none
    cases none
  · rename_i ended
    cases ended
  · rename_i same
    cases same
    rw [if_neg (by decide), if_pos rfl, starts]
    simp only
    split
    · exact absurd rfl solid
    · rfl

theorem key_over (first : Bool) (brace : skipSpace s = '}' :: r) : nextKey manner first s = .ok (none, r) := by
  rw [nextKey, brace]
  rfl

theorem key_opened (quote : skipSpace s = '"' :: r) :
    nextKey manner true s = (manner.key r).map fun p => (some p.1, p.2) := by
  rw [nextKey, quote]
  rfl

theorem key_more (text : List Char) (comma : skipSpace s = ',' :: text) (quote : skipSpace text = '"' :: r) :
    nextKey manner false s = (manner.key r).map fun p => (some p.1, p.2) := by
  rw [nextKey, comma]
  split
  · rename_i none
    cases none
  · rename_i ended
    cases ended
  · rename_i same
    cases same
    rw [if_neg (by decide), if_pos rfl, quote]
    rfl

end

section

variable {α : Type} (manner : Manner) (rd : Reader α) (first : Bool) (s text r : List Char)

theorem items_over (as : List α) (next : nextElement manner first s = .ok (false, text)) :
    Items manner rd first s as r ↔ as = [] ∧ r = text := by
  constructor
  · intro items
    cases items with
    | closed _ _ _ same =>
        cases next.symm.trans same
        exact ⟨rfl, rfl⟩
    | item _ _ _ _ _ _ _ other => cases next.symm.trans other
  · rintro ⟨rfl, rfl⟩
    exact .closed first s r next

theorem items_more (as : List α) (next : nextElement manner first s = .ok (true, text)) :
    Items manner rd first s as r ↔
      ∃ a rest later, rd.run text = .ok (a, rest) ∧ Items manner rd false rest later r ∧ as = a :: later := by
  constructor
  · intro items
    cases items with
    | closed _ _ _ other => cases next.symm.trans other
    | item _ _ _ rest _ a later same read items =>
        cases next.symm.trans same
        exact ⟨a, rest, later, read, items, rfl⟩
  · rintro ⟨a, rest, later, read, items, rfl⟩
    exact .item first s text rest r a later next read items

theorem entries_over (ms : List (String × α)) (next : nextKey kept first s = .ok (none, text)) :
    Entries rd first s ms r ↔ ms = [] ∧ r = text := by
  constructor
  · intro entries
    cases entries with
    | closed _ _ _ same =>
        cases next.symm.trans same
        exact ⟨rfl, rfl⟩
    | entry _ _ _ _ _ _ _ _ other => cases next.symm.trans other
  · rintro ⟨rfl, rfl⟩
    exact .closed first s r next

theorem entries_more (ms : List (String × α)) (goes : ∀ rest, nextKey kept first s ≠ .ok (none, rest)) :
    Entries rd first s ms r ↔ ∃ k text a rest later, nextKey kept first s = .ok (some k, text) ∧
      (afterColon rd).run text = .ok (a, rest) ∧ Entries rd false rest later r ∧ ms = (k, a) :: later := by
  constructor
  · intro entries
    cases entries with
    | closed _ _ _ other => exact absurd other (goes r)
    | entry _ _ text rest _ k a later same read entries =>
        exact ⟨k, text, a, rest, later, same, read, entries, rfl⟩
  · rintro ⟨k, text, a, rest, later, next, read, entries, rfl⟩
    exact .entry first s text rest r k a later next read entries

end

theorem closing_elements (ts : List Tree) (tokens : List (List Char)) :
    Closing (Tree.elementTokens ts ++ [']'] :: tokens) := by
  intro token later same
  cases ts with
  | nil => exact .inr (.inl (List.cons.inj same).1.symm)
  | cons t ts => exact .inl (List.cons.inj same).1.symm

theorem closing_members (ms : List (List Char × Tree)) (tokens : List (List Char)) :
    Closing (Tree.memberTokens ms ++ ['}'] :: tokens) := by
  intro token later same
  cases ms with
  | nil => exact .inr (.inr (List.cons.inj same).1.symm)
  | cons m ms => exact .inl (List.cons.inj same).1.symm

theorem laid_tree (t : Tree) (valid : t.Valid) (tokens : List (List Char)) (s : List Char)
    (laid : Laid (t.tokens ++ tokens) s) :
    ∃ c r, skipSpace s = c :: r ∧ c ≠ ']' ∧ Laid (t.tokens ++ tokens) (c :: r) := by
  obtain ⟨c, token, others, start, solid, square⟩ := tree_starts t valid
  rw [start, List.cons_append] at laid ⊢
  obtain ⟨rest, begun, _, moved⟩ := laid_token c token s _ solid laid
  rw [begun] at moved
  exact ⟨c, _, begun, square, moved⟩

section

variable {α : Type} (manner : Manner) (rd : Reader α) (f : Tree → Option α)

theorem item_rendered (t : Tree) (renders : Renders rd t (f t)) (tokens : List (List Char)) (closing : Closing tokens)
    (first : Bool) (s text : List Char) (laid : Laid (t.tokens ++ tokens) text)
    (next : nextElement manner first s = .ok (true, text)) :
    ∃ rest, Laid tokens rest ∧ ∀ as r, Items manner rd first s as r ↔
      ∃ a later, f t = some a ∧ Items manner rd false rest later r ∧ as = a :: later := by
  obtain ⟨rest, behind, read⟩ := renders tokens text laid closing
  refine ⟨rest, behind, fun as r => ?_⟩
  simp only [items_more manner rd first s text r as next, read]
  constructor
  · rintro ⟨a, _, later, ⟨found, rfl⟩, items, rfl⟩
    exact ⟨a, later, found, items, rfl⟩
  · rintro ⟨a, later, found, items, rfl⟩
    exact ⟨a, rest, later, ⟨found, rfl⟩, items, rfl⟩

theorem mapped_turn {β : Type} (g : β → Option α) (b : β) (bs : List β) (as : List α) (p : Prop) :
    (∃ a later, g b = some a ∧ (bs.mapM g = some later ∧ p) ∧ as = a :: later) ↔ (b :: bs).mapM g = some as ∧ p := by
  simp only [List.mapM_cons, bind, Option.bind_eq_some_iff, pure, Option.some.injEq]
  constructor
  · rintro ⟨a, later, here, ⟨taken, holds⟩, rfl⟩
    exact ⟨⟨a, here, later, taken, rfl⟩, holds⟩
  · rintro ⟨⟨a, here, later, taken, rfl⟩, holds⟩
    exact ⟨a, later, here, ⟨taken, holds⟩, rfl⟩

theorem elements_rendered (ts : List Tree) (valid : ∀ t ∈ ts, t.Valid) (each : ∀ t ∈ ts, Renders rd t (f t))
    (tokens : List (List Char)) (s : List Char) (laid : Laid (Tree.elementTokens ts ++ [']'] :: tokens) s) :
    ∃ r, Laid tokens r ∧ ∀ as r', Items manner rd false s as r' ↔ ts.mapM f = some as ∧ r' = r := by
  induction ts generalizing s with
  | nil =>
      obtain ⟨rest, bracket, later, _⟩ := laid_token ']' [] s tokens (by decide) laid
      refine ⟨rest, later, fun as r' => ?_⟩
      rw [items_over manner rd false s rest r' as (element_over manner s rest false bracket)]
      simp [eq_comm]
  | cons t ts ih =>
      rw [List.forall_mem_cons] at valid each
      rw [Tree.elementTokens, List.cons_append, List.append_assoc] at laid
      obtain ⟨text, comma, later, _⟩ := laid_token ',' [] s _ (by decide) laid
      obtain ⟨c, inside, start, solid, element⟩ := laid_tree t valid.1 _ text later
      have next := element_more manner s inside text c solid comma start
      obtain ⟨rest, behind, items⟩ :=
        item_rendered manner rd f t each.1 _ (closing_elements ts tokens) false s _ element next
      obtain ⟨r, ended, others⟩ := ih valid.2 each.2 rest behind
      refine ⟨r, ended, fun as r' => ?_⟩
      simp only [items, others]
      exact mapped_turn f t ts as (r' = r)

theorem list_rendered (ts : List Tree) (valid : ∀ t ∈ ts, t.Valid) (each : ∀ t ∈ ts, Renders rd t (f t))
    (tokens : List (List Char)) (s : List Char) (laid : Laid ((Tree.list ts).tokens ++ tokens) s) :
    ∃ inside r, skipSpace s = '[' :: inside ∧ Laid tokens r ∧
      ∀ as r', Items manner rd true inside as r' ↔ ts.mapM f = some as ∧ r' = r := by
  rw [Tree.tokens, List.cons_append, List.append_assoc] at laid
  obtain ⟨inside, bracket, later, _⟩ := laid_token '[' [] s _ (by decide) laid
  cases ts with
  | nil =>
      obtain ⟨rest, square, behind, _⟩ := laid_token ']' [] inside tokens (by decide) later
      refine ⟨inside, rest, bracket, behind, fun as r' => ?_⟩
      rw [items_over manner rd true inside rest r' as (element_over manner inside rest true square)]
      simp [eq_comm]
  | cons t ts =>
      rw [List.forall_mem_cons] at valid each
      rw [Tree.elementTokens, List.tail_cons, List.append_assoc] at later
      obtain ⟨c, text, start, solid, element⟩ := laid_tree t valid.1 _ inside later
      have next := element_opened manner inside text c solid start
      obtain ⟨rest, behind, items⟩ :=
        item_rendered manner rd f t each.1 _ (closing_elements ts tokens) true inside _ element next
      obtain ⟨r, ended, others⟩ := elements_rendered manner rd f ts valid.2 each.2 tokens rest behind
      refine ⟨inside, r, bracket, ended, fun as r' => ?_⟩
      simp only [items, others]
      exact mapped_turn f t ts as (r' = r)

theorem laid_name (name s : List Char) (tokens : List (List Char))
    (laid : Laid (('"' :: (name ++ ['"'])) :: [':'] :: tokens) s) :
    ∃ text rest, skipSpace s = '"' :: (name ++ '"' :: text) ∧ skipSpace text = ':' :: rest ∧ Laid tokens rest := by
  obtain ⟨text, quote, later, _⟩ := laid_token '"' _ s _ (by decide) laid
  obtain ⟨rest, colon, behind, _⟩ := laid_token ':' [] text _ (by decide) later
  exact ⟨text, rest, by simpa using quote, colon, behind⟩

theorem entry_rendered (m : List Char × Tree) (body : Body m.1) (renders : Renders rd m.2 (f m.2))
    (tokens : List (List Char)) (closing : Closing tokens) (first : Bool) (s text inside : List Char)
    (next : nextKey kept first s = (kept.key (m.1 ++ '"' :: text)).map fun p => (some p.1, p.2))
    (colon : skipSpace text = ':' :: inside) (laid : Laid (m.2.tokens ++ tokens) inside) :
    ∃ rest, Laid tokens rest ∧ ∀ ms r, Entries rd first s ms r ↔
      ∃ a later, Tree.pair? f m = some a ∧ Entries rd false rest later r ∧ ms = a :: later := by
  obtain ⟨rest, behind, read⟩ := renders tokens inside laid closing
  have key (k : String) (r : List Char) :
      nextKey kept first s = .ok (some k, r) ↔ name? m.1 = some k ∧ r = text := by
    simp only [next, mapped_ok, Prod.exists, Prod.mk.injEq, Option.some.injEq, key_read m.1 text _ _ body]
    constructor
    · rintro ⟨_, _, found, rfl, rfl⟩
      exact found
    · exact fun found => ⟨k, r, found, rfl, rfl⟩
  have goes (r : List Char) : nextKey kept first s ≠ .ok (none, r) := by
    rw [next]
    cases kept.key (m.1 ++ '"' :: text) <;> simp [Except.map]
  refine ⟨rest, behind, fun ms r => ?_⟩
  simp only [entries_more rd first s r ms goes, key, Tree.pair?, Option.bind_eq_some_iff, Option.map_eq_some_iff]
  constructor
  · rintro ⟨k, _, a, left, later, ⟨named, rfl⟩, value, entries, rfl⟩
    obtain ⟨_, same, value⟩ := (after_colon rd _ left a).mp value
    cases colon.symm.trans same
    obtain ⟨found, rfl⟩ := (read a left).mp value
    exact ⟨(k, a), later, ⟨k, named, a, found, rfl⟩, entries, rfl⟩
  · rintro ⟨_, later, ⟨k, named, a, found, rfl⟩, entries, rfl⟩
    have value := (after_colon rd text rest a).mpr ⟨inside, colon, (read a rest).mpr ⟨found, rfl⟩⟩
    exact ⟨k, text, a, rest, later, ⟨named, rfl⟩, value, entries, rfl⟩

theorem members_rendered (ms : List (List Char × Tree)) (bodies : ∀ m ∈ ms, Body m.1)
    (each : ∀ m ∈ ms, Renders rd m.2 (f m.2)) (tokens : List (List Char)) (s : List Char)
    (laid : Laid (Tree.memberTokens ms ++ ['}'] :: tokens) s) :
    ∃ r, Laid tokens r ∧ ∀ as r', Entries rd false s as r' ↔ ms.mapM (Tree.pair? f) = some as ∧ r' = r := by
  induction ms generalizing s with
  | nil =>
      obtain ⟨rest, brace, later, _⟩ := laid_token '}' [] s tokens (by decide) laid
      refine ⟨rest, later, fun as r' => ?_⟩
      rw [entries_over rd false s rest r' as (key_over kept s rest false brace)]
      simp [eq_comm]
  | cons m ms ih =>
      rw [List.forall_mem_cons] at bodies each
      obtain ⟨name, t⟩ := m
      simp only [Tree.memberTokens, List.cons_append, List.append_assoc] at laid
      obtain ⟨behind, comma, later, _⟩ := laid_token ',' [] s _ (by decide) laid
      obtain ⟨text, inside, quote, colon, value⟩ := laid_name name behind _ later
      obtain ⟨rest, others, entries⟩ := entry_rendered rd f (name, t) bodies.1 each.1 _ (closing_members ms tokens)
        false s text inside (key_more kept s _ behind comma quote) colon value
      obtain ⟨r, ended, more⟩ := ih bodies.2 each.2 rest others
      refine ⟨r, ended, fun as r' => ?_⟩
      simp only [entries, more]
      exact mapped_turn (Tree.pair? f) (name, t) ms as (r' = r)

theorem object_rendered (ms : List (List Char × Tree)) (bodies : ∀ m ∈ ms, Body m.1)
    (each : ∀ m ∈ ms, Renders rd m.2 (f m.2)) (tokens : List (List Char)) (s : List Char)
    (laid : Laid ((Tree.object ms).tokens ++ tokens) s) :
    ∃ inside r, skipSpace s = '{' :: inside ∧ Laid tokens r ∧
      ∀ as r', Entries rd true inside as r' ↔ ms.mapM (Tree.pair? f) = some as ∧ r' = r := by
  rw [Tree.tokens, List.cons_append, List.append_assoc] at laid
  obtain ⟨inside, brace, later, _⟩ := laid_token '{' [] s _ (by decide) laid
  cases ms with
  | nil =>
      obtain ⟨rest, closed, behind, _⟩ := laid_token '}' [] inside tokens (by decide) later
      refine ⟨inside, rest, brace, behind, fun as r' => ?_⟩
      rw [entries_over rd true inside rest r' as (key_over kept inside rest true closed)]
      simp [eq_comm]
  | cons m ms =>
      rw [List.forall_mem_cons] at bodies each
      obtain ⟨name, t⟩ := m
      simp only [Tree.memberTokens, List.tail_cons, List.cons_append, List.append_assoc] at later
      obtain ⟨text, value, quote, colon, laid⟩ := laid_name name inside _ later
      obtain ⟨rest, others, entries⟩ := entry_rendered rd f (name, t) bodies.1 each.1 _ (closing_members ms tokens)
        true inside text value (key_opened kept inside _ quote) colon laid
      obtain ⟨r, ended, more⟩ := members_rendered rd f ms bodies.2 each.2 tokens rest others
      refine ⟨inside, r, brace, ended, fun as r' => ?_⟩
      simp only [entries, more]
      exact mapped_turn (Tree.pair? f) (name, t) ms as (r' = r)

end

theorem leaf_rendered {α : Type} (rd : Reader α) (lexeme : List Char) (valid : Lexeme lexeme) (o : Option α)
    (plain : ∀ s r, Unbracketed s → skipSpace s = lexeme ++ r → Ends r →
      ∀ a r', rd.run s = .ok (a, r') ↔ o = some a ∧ r' = r) : Renders rd (.leaf lexeme) o := by
  intro tokens s laid closing
  obtain ⟨c, rest, rfl, solid, other⟩ := leaf_starts lexeme valid
  obtain ⟨r, starts, later, _⟩ := laid_token c rest s tokens solid laid
  refine ⟨r, later, plain s r ?_ starts (laid_ends tokens r closing later)⟩
  intro text
  rw [starts]
  constructor
  · intro same
    rw [(List.cons.inj same).1] at other
    exact other (by decide)
  · intro same
    rw [(List.cons.inj same).1] at other
    exact other (by decide)

theorem laid_behind (before tokens : List (List Char)) (s : List Char) (laid : Laid (before ++ tokens) s) :
    ∃ r, Laid tokens r := by
  induction before generalizing s with
  | nil => exact ⟨s, laid⟩
  | cons token before ih =>
      cases laid with
      | token _ _ rest _ _ later => exact ih rest later

theorem kept_found {β : Type} (o : Option β) (keep : β → Value) (v : Value) (r r' : List Char) :
    (∃ b, (o = some b ∧ r' = r) ∧ v = keep b) ↔ o.map keep = some v ∧ r' = r := by
  rw [Option.map_eq_some_iff]
  constructor
  · rintro ⟨b, ⟨found, rfl⟩, rfl⟩
    exact ⟨⟨b, found, rfl⟩, rfl⟩
  · rintro ⟨⟨b, found, rfl⟩, rfl⟩
    exact ⟨b, ⟨found, rfl⟩, rfl⟩

theorem deep_renders (t : Tree) (c : Char) (later : List (List Char)) (starts : t.tokens = [c] :: later)
    (bracket : c = '[' ∨ c = '{') : Renders (asWritten 0) t none := by
  intro tokens s laid _
  obtain ⟨r, behind⟩ := laid_behind _ tokens s laid
  rw [starts] at laid
  have solid : isSpace c = false := by rcases bracket with rfl | rfl <;> decide
  obtain ⟨text, opened, _, _⟩ := laid_token c [] s _ solid laid
  refine ⟨r, behind, fun v r' => ?_⟩
  have deep := reading_shallow (fun ms k v => ms ++ [(k, v)]) s r' v fun plain => by
    rcases bracket with rfl | rfl
    · exact (plain _).1 opened
    · exact (plain _).2 opened
  simp only [asWritten, deep, reduceCtorEq, false_and]

theorem written_renders (t : Tree) (valid : t.Valid) (d : Nat) : Renders (asWritten d) t (t.value? d) := by
  induction valid generalizing d with
  | leaf lexeme valid =>
      refine leaf_rendered _ lexeme valid _ fun s r plain starts ends v r' => ?_
      have determined := leaf_determined lexeme valid r ends
      rw [asWritten, reading_plain _ d s r' v plain, starts]
      simp only [determined, Tree.value?, kept_found]
  | list ts valid each =>
      cases d with
      | zero => exact deep_renders _ '[' _ rfl (.inl rfl)
      | succ d =>
          intro tokens s laid _
          obtain ⟨inside, r, bracket, behind, items⟩ :=
            list_rendered kept (asWritten d) (Tree.value? d) ts valid (fun t member => each t member d) tokens s laid
          refine ⟨r, behind, fun v r' => ?_⟩
          simp only [asWritten, reading_list _ d s inside r' v bracket] at items ⊢
          simp only [items, Tree.value?, kept_found]
  | object ms bodies valid each =>
      cases d with
      | zero => exact deep_renders _ '{' _ rfl (.inr rfl)
      | succ d =>
          intro tokens s laid _
          obtain ⟨inside, r, brace, behind, entries⟩ :=
            object_rendered (asWritten d) (Tree.value? d) ms bodies (fun m member => each m member d) tokens s laid
          refine ⟨r, behind, fun v r' => ?_⟩
          simp only [asWritten, reading_object _ d s inside r' v brace] at entries ⊢
          simp only [entries, members_appended, List.nil_append, Tree.value?, kept_found]

-- Skipping finds the end of every tree, whether or not it could be kept.
section

variable (rd : Reader Unit) (ms : List (List Char × Tree)) (bodies : ∀ m ∈ ms, Body m.1)
  (each : ∀ m ∈ ms, Renders rd m.2 (some ()))

theorem entry_passed (m : List Char × Tree) (body : Body m.1) (renders : Renders rd m.2 (some ()))
    (tokens : List (List Char)) (closing : Closing tokens) (first : Bool) (s text inside : List Char)
    (next : nextKey skipped first s = (skipped.key (m.1 ++ '"' :: text)).map fun p => (some p.1, p.2))
    (colon : skipSpace text = ':' :: inside) (laid : Laid (m.2.tokens ++ tokens) inside) :
    ∃ rest, Laid tokens rest ∧ ∀ r, members skipped (fun _ _ => afterColon rd) () false rest = .ok ((), r) →
      members skipped (fun _ _ => afterColon rd) () first s = .ok ((), r) := by
  obtain ⟨rest, behind, read⟩ := renders tokens inside laid closing
  have value := (after_colon rd text rest ()).mpr ⟨inside, colon, (read () rest).mpr ⟨rfl, rfl⟩⟩
  have key : nextKey skipped first s = .ok (some "", text) := by
    rw [next]
    change ((skipString _).map _).map _ = _
    rw [body_skipped m.1 text body]
    rfl
  exact ⟨rest, behind, fun r later => members_step _ () () () first "" s text rest r key value later⟩

include bodies each

theorem members_passed (tokens : List (List Char)) (s : List Char)
    (laid : Laid (Tree.memberTokens ms ++ ['}'] :: tokens) s) :
    ∃ r, Laid tokens r ∧ members skipped (fun _ _ => afterColon rd) () false s = .ok ((), r) := by
  induction ms generalizing s with
  | nil =>
      obtain ⟨rest, brace, later, _⟩ := laid_token '}' [] s tokens (by decide) laid
      exact ⟨rest, later, members_closed skipped _ () false s rest (key_over skipped s rest false brace)⟩
  | cons m ms ih =>
      rw [List.forall_mem_cons] at bodies each
      obtain ⟨name, t⟩ := m
      simp only [Tree.memberTokens, List.cons_append, List.append_assoc] at laid
      obtain ⟨behind, comma, later, _⟩ := laid_token ',' [] s _ (by decide) laid
      obtain ⟨text, inside, quote, colon, value⟩ := laid_name name behind _ later
      obtain ⟨rest, others, passes⟩ := entry_passed rd (name, t) bodies.1 each.1 _ (closing_members ms tokens)
        false s text inside (key_more skipped s _ behind comma quote) colon value
      obtain ⟨r, ended, passed⟩ := ih bodies.2 each.2 rest others
      exact ⟨r, ended, passes r passed⟩

theorem object_passed (tokens : List (List Char)) (s : List Char)
    (laid : Laid ((Tree.object ms).tokens ++ tokens) s) :
    ∃ inside r, skipSpace s = '{' :: inside ∧ Laid tokens r ∧
      members skipped (fun _ _ => afterColon rd) () true inside = .ok ((), r) := by
  rw [Tree.tokens, List.cons_append, List.append_assoc] at laid
  obtain ⟨inside, brace, later, _⟩ := laid_token '{' [] s _ (by decide) laid
  cases ms with
  | nil =>
      obtain ⟨rest, closed, behind, _⟩ := laid_token '}' [] inside tokens (by decide) later
      exact ⟨inside, rest, brace, behind,
        members_closed skipped _ () true inside rest (key_over skipped inside rest true closed)⟩
  | cons m ms =>
      rw [List.forall_mem_cons] at bodies each
      obtain ⟨name, t⟩ := m
      simp only [Tree.memberTokens, List.tail_cons, List.cons_append, List.append_assoc] at later
      obtain ⟨text, value, quote, colon, laid⟩ := laid_name name inside _ later
      obtain ⟨rest, others, passes⟩ := entry_passed rd (name, t) bodies.1 each.1 _ (closing_members ms tokens)
        true inside text value (key_opened skipped inside _ quote) colon laid
      obtain ⟨r, ended, passed⟩ := members_passed rd ms bodies.2 each.2 tokens rest others
      exact ⟨inside, r, brace, ended, passes r passed⟩

end

theorem read_renders {α : Type} (rd : Reader α) (t : Tree) (a : α)
    (reads : ∀ tokens s, Laid (t.tokens ++ tokens) s → Closing tokens → ∃ r, Laid tokens r ∧ rd.run s = .ok (a, r)) :
    Renders rd t (some a) := by
  intro tokens s laid closing
  obtain ⟨r, behind, read⟩ := reads tokens s laid closing
  refine ⟨r, behind, fun b r' => ?_⟩
  simp [read, eq_comm]

theorem enough {β : Type} (bs : List β) (p : Nat → β → Prop) (each : ∀ b ∈ bs, ∃ n, ∀ m, n ≤ m → p m b) :
    ∃ n, ∀ m, n ≤ m → ∀ b ∈ bs, p m b := by
  induction bs with
  | nil => exact ⟨0, fun _ _ => List.forall_mem_nil _⟩
  | cons b bs ih =>
      rw [List.forall_mem_cons] at each
      obtain ⟨n, here⟩ := each.1
      obtain ⟨n', others⟩ := ih each.2
      refine ⟨n + n', fun m above => ?_⟩
      rw [List.forall_mem_cons]
      exact ⟨here m (by omega), others m (by omega)⟩

theorem depth_renders (t : Tree) (valid : t.Valid) : ∃ n, ∀ m, n ≤ m → Renders (skipTo m) t (some ()) := by
  induction valid with
  | leaf lexeme valid =>
      refine ⟨0, fun m _ => leaf_rendered _ lexeme valid _ fun s r plain starts ends _ r' => ?_⟩
      rw [skip_plain m s plain, starts, leaf_skipped lexeme r valid ends]
      simp [eq_comm]
  | list ts valid each =>
      obtain ⟨n, inside⟩ := enough ts (fun m t => Renders (skipTo m) t (some ())) each
      refine ⟨n + 1, fun m above => read_renders _ _ _ fun tokens s laid _ => ?_⟩
      obtain ⟨m, rfl⟩ : ∃ k, m = k + 1 := ⟨m - 1, by omega⟩
      obtain ⟨text, r, bracket, behind, items⟩ :=
        list_rendered skipped (skipTo m) (fun _ => some ()) ts valid (inside m (by omega)) tokens s laid
      have found : ts.mapM (fun _ => some ()) = some (ts.map fun _ => ()) := List.mapM_pure
      have passed := (elements_iff skipped (skipTo m) true text r _).mpr ((items _ r).mpr ⟨found, rfl⟩)
      refine ⟨r, behind, ?_⟩
      rw [skip_opened m s text bracket, passed]
      rfl
  | object ms bodies valid each =>
      obtain ⟨n, inside⟩ := enough ms (fun m t => Renders (skipTo m) t.2 (some ())) each
      refine ⟨n + 1, fun m above => read_renders _ _ _ fun tokens s laid _ => ?_⟩
      obtain ⟨m, rfl⟩ : ∃ k, m = k + 1 := ⟨m - 1, by omega⟩
      obtain ⟨text, r, brace, behind, passed⟩ :=
        object_passed (skipTo m) ms bodies (inside m (by omega)) tokens s laid
      exact ⟨r, behind, by rw [skip_keyed m s text brace, passed]⟩

theorem skip_renders (t : Tree) (valid : t.Valid) : Renders skip t (some ()) := by
  obtain ⟨n, renders⟩ := depth_renders t valid
  refine read_renders _ _ _ fun tokens s laid closing => ?_
  obtain ⟨r, behind, read⟩ := renders n (Nat.le_refl n) tokens s laid closing
  exact ⟨r, behind, deeper_skipped s.length n s r () (Nat.le_refl _) ((read () r).mpr ⟨rfl, rfl⟩)⟩

theorem glimpse_renders (t : Tree) (valid : t.Valid) (d : Nat) : Renders (glimpse d) t (some (t.value? d)) := by
  refine read_renders _ _ _ fun tokens s laid closing => ?_
  obtain ⟨r, behind, passed⟩ := skip_renders t valid tokens s laid closing
  obtain ⟨left, _, kept⟩ := written_renders t valid d tokens s laid closing
  obtain ⟨o, seen⟩ := (glimpse_skipped d s r).mpr ((passed () r).mpr ⟨rfl, rfl⟩)
  refine ⟨r, behind, ?_⟩
  rw [seen]
  cases o with
  | some v =>
      obtain ⟨found, _⟩ := (kept v r).mp ((glimpse_some d s r v).mp seen)
      rw [found]
  | none =>
      cases found : t.value? d with
      | none => rfl
      | some v =>
          have written := (glimpse_some d s left v).mpr ((kept v left).mpr ⟨found, rfl⟩)
          cases seen.symm.trans written

end DarkDrop.Json
