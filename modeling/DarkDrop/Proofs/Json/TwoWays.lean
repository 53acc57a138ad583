import DarkDrop.Proofs.Json.RecordText
import DarkDrop.Proofs.Json.Skipping
import Mathlib.Data.List.DropRight

namespace DarkDrop.Json

inductive Value.Repeats : Value → Prop where
  | here (ms : List (String × Value)) (twice : ¬ (ms.map Prod.fst).Nodup) : (Value.object ms).Repeats
  | element (vs : List Value) (v : Value) (member : v ∈ vs) (inside : v.Repeats) : (Value.list vs).Repeats
  | member (ms : List (String × Value)) (m : String × Value) (member : m ∈ ms) (inside : m.2.Repeats) :
      (Value.object ms).Repeats

mutual

def Value.repeats : Value → Bool
  | .scalar _ => false
  | .list vs => listRepeats vs
  | .object ms => !decide (ms.map Prod.fst).Nodup || membersRepeat ms

def listRepeats : List Value → Bool
  | [] => false
  | v :: vs => v.repeats || listRepeats vs

def membersRepeat : List (String × Value) → Bool
  | [] => false
  | (_, v) :: ms => v.repeats || membersRepeat ms

end

mutual

theorem repeats_iff (v : Value) : v.repeats = true ↔ v.Repeats := by
  match v with
  | .scalar _ =>
      rw [Value.repeats]
      exact ⟨nofun, nofun⟩
  | .list vs =>
      rw [Value.repeats, list_repeats_iff vs]
      constructor
      · rintro ⟨w, member, inside⟩
        exact .element vs w member inside
      · intro repeats
        cases repeats with
        | element _ w member inside => exact ⟨w, member, inside⟩
  | .object ms =>
      rw [Value.repeats, Bool.or_eq_true, members_repeat_iff ms, Bool.not_eq_true', decide_eq_false_iff_not]
      constructor
      · rintro (twice | ⟨m, member, inside⟩)
        · exact .here ms twice
        · exact .member ms m member inside
      · intro repeats
        cases repeats with
        | here _ twice => exact .inl twice
        | member _ m member inside => exact .inr ⟨m, member, inside⟩

theorem list_repeats_iff (vs : List Value) : listRepeats vs = true ↔ ∃ v ∈ vs, v.Repeats := by
  match vs with
  | [] => simp [listRepeats]
  | v :: vs => rw [listRepeats, Bool.or_eq_true, repeats_iff v, list_repeats_iff vs, List.exists_mem_cons_iff]

theorem members_repeat_iff (ms : List (String × Value)) :
    membersRepeat ms = true ↔ ∃ m ∈ ms, m.2.Repeats := by
  match ms with
  | [] => simp [membersRepeat]
  | (k, v) :: ms =>
      rw [membersRepeat, Bool.or_eq_true, repeats_iff v, members_repeat_iff ms, List.exists_mem_cons_iff]

end

instance (v : Value) : Decidable v.Repeats := decidable_of_iff _ (repeats_iff v)

-- The two ways to a value of some form, from its text and from the generic value of the text: they
-- never differ, and a text that repeats no name can be gone both ways.
structure Follows {α : Type} (rd : Reader α) (take : Value → Except Cause α) : Prop where
  agrees : ∀ d s r rest v a, (asWritten d).run s = .ok (v, r) → rd.run s = .ok (a, rest) →
    rest = r ∧ take v.sorted = .ok a
  reads : ∀ d s r v a, (asWritten d).run s = .ok (v, r) → ¬ v.Repeats → take v.sorted = .ok a →
    rd.run s = .ok (a, r)

structure FollowsAt {α : Type} (d : Nat) (rd : Reader α) (take : Value → Except Cause α) : Prop where
  agrees : ∀ s r rest v a, (asWritten d).run s = .ok (v, r) → rd.run s = .ok (a, rest) →
    rest = r ∧ take v.sorted = .ok a
  reads : ∀ s r v a, (asWritten d).run s = .ok (v, r) → ¬ v.Repeats → take v.sorted = .ok a →
    rd.run s = .ok (a, r)

theorem Follows.to {α : Type} {rd : Reader α} {take : Value → Except Cause α} (follows : Follows rd take)
    (d : Nat) : FollowsAt d rd take :=
  ⟨follows.agrees d, follows.reads d⟩

theorem follows_everywhere {α : Type} (rd : Reader α) (take : Value → Except Cause α)
    (each : ∀ d, FollowsAt d rd take) : Follows rd take :=
  ⟨fun d => (each d).agrees, fun d => (each d).reads⟩

theorem map_follows_at {α β : Type} (d : Nat) (rd : Reader α) (take : Value → Except Cause α) (f : α → β)
    (follows : FollowsAt d rd take) : FollowsAt d (rd.map f) fun v => (take v).map f := by
  refine ⟨?_, ?_⟩
  · intro s r rest v b written read
    obtain ⟨a, value, rfl⟩ := (map_ok rd f s rest b).mp read
    obtain ⟨same, taken⟩ := follows.agrees s r rest v a written value
    exact ⟨same, by rw [taken]; rfl⟩
  · intro s r v b written once taken
    obtain ⟨a, value, rfl⟩ := map_eq_ok taken
    exact (map_ok rd f s r _).mpr ⟨a, follows.reads s r v a written once value, rfl⟩

theorem map_follows {α β : Type} (rd : Reader α) (take : Value → Except Cause α) (f : α → β)
    (follows : Follows rd take) : Follows (rd.map f) fun v => (take v).map f :=
  follows_everywhere _ _ fun d => map_follows_at d rd take f (follows.to d)

theorem scalar_follows {α : Type} (wanted : String) (accept : Scalar → Except Cause α) :
    Follows (Form.scalar wanted accept).read (Form.scalar wanted accept).ofValue := by
  have simple (s r rest : List Char) (x : Scalar) (a : α) (plain : Unbracketed s)
      (found : scalar (skipSpace s) = .ok (x, r)) :
      (Form.scalar wanted accept).read.run s = .ok (a, rest) ↔ rest = r ∧ accept x = .ok a := by
    change bracketed _ _ _ s = _ ↔ _
    rw [bracketed_plain _ _ _ s plain, found]
    dsimp only
    split
    · rename_i refused
      simp [refused]
    · rename_i accepted
      simp [accepted, eq_comm, and_comm]
  refine ⟨?_, ?_⟩
  · intro d s r rest v a written read
    cases spelled d s r v written with
    | scalar d s r x plain found => exact (simple s r rest x a plain found).mp read
    | list d s text r vs opened items =>
        change bracketed _ _ _ s = _ at read
        rw [bracketed_list _ _ _ s text opened] at read
        cases read
    | object d s text r ms opened entries =>
        change bracketed _ _ _ s = _ at read
        rw [bracketed_object _ _ _ s text opened] at read
        cases read
  · intro d s r v a written _ taken
    cases spelled d s r v written with
    | scalar d s r x plain found => exact (simple s r r x a plain found).mpr ⟨rfl, taken⟩
    | list => cases taken
    | object => cases taken

theorem count_follows (wanted : String) : Follows (Form.count wanted).read (Form.count wanted).ofValue :=
  scalar_follows wanted _

theorem text_follows : Follows Form.text.read Form.text.ofValue := scalar_follows _ _

theorem space_skipped (s : List Char) : skipSpace (skipSpace s) = skipSpace s :=
  List.dropWhile_idempotent isSpace s

theorem written_space (d : Nat) (s : List Char) : (asWritten d).run (skipSpace s) = (asWritten d).run s := by
  cases d with
  | zero =>
    change bracketed _ _ _ (skipSpace s) = bracketed _ _ _ s
    rw [bracketed, space_skipped]
    rfl
  | succ d =>
    change bracketed _ _ _ (skipSpace s) = bracketed _ _ _ s
    rw [bracketed, space_skipped]
    rfl

theorem null_written (d : Nat) (s text r : List Char) (v : Value) (letter : skipSpace s = 'n' :: text)
    (written : (asWritten d).run s = .ok (v, r)) :
    v = .scalar .null ∧ word ['u', 'l', 'l'] text = .ok r := by
  cases spelled d s r v written with
  | scalar d s r x plain found =>
      rw [letter, scalar, if_pos rfl] at found
      obtain ⟨_, read, same⟩ := map_eq_ok found
      cases same
      exact ⟨rfl, read⟩
  | list d s other r vs opened items =>
      rw [letter] at opened
      cases opened
  | object d s other r ms opened entries =>
      rw [letter] at opened
      cases opened

theorem null_letter (s r : List Char) (read : scalar s = .ok (.null, r)) : ∃ text, s = 'n' :: text := by
  cases s with
  | nil => cases read
  | cons c s =>
    rw [scalar] at read
    split_ifs at read
    · rename_i letter
      exact ⟨s, by rw [letter]⟩
    all_goals
      obtain ⟨_, _, same⟩ := map_eq_ok read
      cases same

theorem present_written (d : Nat) (s r : List Char) (v : Value) (other : ∀ text, skipSpace s ≠ 'n' :: text)
    (written : (asWritten d).run s = .ok (v, r)) : v.sorted ≠ .scalar .null := by
  cases spelled d s r v written with
  | scalar d s r x plain found =>
      intro null
      rw [Value.sorted] at null
      cases null
      obtain ⟨text, letter⟩ := null_letter _ r found
      exact other text letter
  | list => simp [Value.sorted]
  | object => simp [Value.sorted]

theorem optional_null {α : Type} (form : Form α) (s text : List Char) (letter : skipSpace s = 'n' :: text) :
    form.optional.read.run s = (word ['u', 'l', 'l'] text).map (none, ·) := by
  rw [Form.optional]
  simp only [letter]

theorem optional_other {α : Type} (form : Form α) (s : List Char) (other : ∀ text, skipSpace s ≠ 'n' :: text) :
    form.optional.read.run s = (form.read.map some).run (skipSpace s) := by
  rw [Form.optional]
  dsimp only
  split
  · rename_i text letter
    exact absurd letter (other text)
  · rfl

theorem optional_follows_at {α : Type} (d : Nat) (form : Form α)
    (follows : FollowsAt d form.read form.ofValue) :
    FollowsAt d form.optional.read form.optional.ofValue := by
  have inside := map_follows_at d form.read form.ofValue some follows
  refine ⟨?_, ?_⟩
  · intro s r rest v a written read
    by_cases letter : ∃ text, skipSpace s = 'n' :: text
    · obtain ⟨text, letter⟩ := letter
      obtain ⟨rfl, word⟩ := null_written d s text r v letter written
      rw [optional_null form s text letter, word] at read
      cases read
      exact ⟨rfl, rfl⟩
    · have solid : ∀ text, skipSpace s ≠ 'n' :: text := fun text here => letter ⟨text, here⟩
      rw [optional_other form s solid] at read
      rw [optional_present form v.sorted (present_written d s r v solid written)]
      exact inside.agrees _ r rest v a (by rwa [written_space]) read
  · intro s r v a written once taken
    by_cases letter : ∃ text, skipSpace s = 'n' :: text
    · obtain ⟨text, letter⟩ := letter
      obtain ⟨rfl, word⟩ := null_written d s text r v letter written
      cases taken
      rw [optional_null form s text letter, word]
      rfl
    · have solid : ∀ text, skipSpace s ≠ 'n' :: text := fun text here => letter ⟨text, here⟩
      rw [optional_present form v.sorted (present_written d s r v solid written)] at taken
      rw [optional_other form s solid]
      exact inside.reads _ r v a (by rwa [written_space]) once taken

theorem optional_follows {α : Type} (form : Form α) (follows : Follows form.read form.ofValue) :
    Follows form.optional.read form.optional.ofValue :=
  follows_everywhere _ _ fun d => optional_follows_at d form (follows.to d)

section

variable {α : Type} (rd : Reader α) (take : Value → Except Cause α) (d : Nat) (follows : FollowsAt d rd take)
include follows

theorem items_agree (first : Bool) (s r rest : List Char) (vs : List Value) (as : List α)
    (written : Items kept (asWritten d) first s vs r) (read : Items kept rd first s as rest) :
    rest = r ∧ (vs.map Value.sorted).mapM take = .ok as := by
  induction written generalizing as with
  | closed first s r next =>
      cases read with
      | closed _ _ _ same =>
          rw [next] at same
          cases same
          exact ⟨rfl, rfl⟩
      | item _ _ _ _ _ _ _ other =>
          rw [next] at other
          cases other
  | item first s text left r v vs next value _ ih =>
      cases read with
      | closed _ _ _ other =>
          rw [next] at other
          cases other
      | item _ _ _ after _ a as same taken later =>
          rw [next] at same
          cases same
          obtain ⟨rfl, head⟩ := follows.agrees text left after v a value taken
          obtain ⟨rfl, tail⟩ := ih as later
          refine ⟨rfl, ?_⟩
          rw [List.map_cons, List.mapM_cons, head, tail]
          rfl

theorem items_read (first : Bool) (s r : List Char) (vs : List Value) (as : List α)
    (written : Items kept (asWritten d) first s vs r) (once : ∀ v ∈ vs, ¬ v.Repeats)
    (taken : (vs.map Value.sorted).mapM take = .ok as) : Items kept rd first s as r := by
  induction written generalizing as with
  | closed first s r next =>
      cases taken
      exact .closed first s r next
  | item first s text rest r v vs next value _ ih =>
      rw [List.map_cons, List.mapM_cons] at taken
      cases head : take v.sorted with
      | error e =>
          rw [head] at taken
          cases taken
      | ok a =>
          cases tail : (vs.map Value.sorted).mapM take with
          | error e =>
              rw [head, tail] at taken
              cases taken
          | ok others =>
              rw [head, tail] at taken
              cases taken
              have here := follows.reads text rest v a value (once v (by simp)) head
              exact .item first s text rest r a others next here
                (ih others (fun w member => once w (by simp [member])) tail)

end

theorem list_follows {α : Type} (form : Form α) (follows : Follows form.read form.ofValue) :
    Follows form.list.read form.list.ofValue := by
  have opened (s text : List Char) (bracket : skipSpace s = '[' :: text) :
      form.list.read.run s = elements kept form.read true text := bracketed_list _ _ _ s text bracket
  refine ⟨?_, ?_⟩
  · intro d s r rest v as written read
    cases spelled d s r v written with
    | scalar d s r x plain found =>
        change bracketed _ _ _ s = _ at read
        rw [bracketed_plain _ _ _ s plain, found] at read
        cases read
    | list d s text r vs bracket items =>
        rw [opened s text bracket, elements_iff] at read
        rw [Value.sorted, sorted_list]
        exact items_agree form.read form.ofValue d (follows.to d) true text r rest vs as items read
    | object d s text r ms brace entries =>
        change bracketed _ _ _ s = _ at read
        rw [bracketed_object _ _ _ s text brace] at read
        cases read
  · intro d s r v as written once taken
    cases spelled d s r v written with
    | scalar => cases taken
    | list d s text r vs bracket items =>
        rw [Value.sorted, sorted_list] at taken
        rw [opened s text bracket, elements_iff]
        exact items_read form.read form.ofValue d (follows.to d) true text r vs as items
          (fun v member inside => once (.element vs v member inside)) taken
    | object => cases taken

end DarkDrop.Json
