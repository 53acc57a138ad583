import DarkDrop.Proofs.Json.TwoWays
import Mathlib.Data.List.Pairwise

namespace DarkDrop.Json

-- Filling the one field leaves the other as it is, and could as well come after it.
structure Undisturbed {σ : Type} (f g : Field σ) : Prop where
  keeps : ∀ draft next v, f.ofValue draft v = .ok next → g.filled next = g.filled draft
  swaps : ∀ draft next last v w, f.ofValue draft v = .ok next → g.ofValue next w = .ok last →
    ∃ between, g.ofValue draft w = .ok between ∧ f.ofValue between v = .ok last

structure Apart {σ : Type} (f g : Field σ) : Prop where
  names : f.name ≠ g.name
  before : Undisturbed f g
  after : Undisturbed g f

instance {σ : Type} : Std.Symm (Apart (σ := σ)) where
  symm _ _ apart := ⟨apart.names.symm, apart.after, apart.before⟩

structure Record.Distinct {σ α : Type} (rc : Record σ α) : Prop where
  vacant : ∀ f ∈ rc.fields, f.filled rc.blank = false
  fills : ∀ f ∈ rc.fields, ∀ draft next v, f.ofValue draft v = .ok next → f.filled next = true
  apart : rc.fields.Pairwise Apart

structure Record.Lawful {σ α : Type} (rc : Record σ α) : Prop where
  vacant : ∀ f ∈ rc.fields, f.filled rc.blank = false
  fills : ∀ f ∈ rc.fields, ∀ draft next v, f.ofValue draft v = .ok next → f.filled next = true
  apart : rc.fields.Pairwise Apart
  follows : ∀ f ∈ rc.fields, ∀ draft, Follows (f.read draft) (f.ofValue draft)

theorem Record.Lawful.distinct {σ α : Type} {rc : Record σ α} (lawful : rc.Lawful) : rc.Distinct :=
  ⟨lawful.vacant, lawful.fills, lawful.apart⟩

def Record.FollowsAt {σ α : Type} (d : Nat) (rc : Record σ α) : Prop :=
  ∀ f ∈ rc.fields, ∀ draft, Json.FollowsAt d (f.read draft) (f.ofValue draft)

section

variable {σ α : Type} (name : String) (get : σ → Option α) (set : σ → α → σ) (form : Form α)

theorem of_fills (held : ∀ draft a, get (set draft a) = some a) (draft next : σ) (v : Value)
    (taken : (Field.of name get set form).ofValue draft v = .ok next) :
    (Field.of name get set form).filled next = true := by
  obtain ⟨a, _, rfl⟩ := map_eq_ok taken
  simp [Field.of, held]

theorem of_follows_at (d : Nat) (follows : FollowsAt d form.read form.ofValue) (draft : σ) :
    FollowsAt d ((Field.of name get set form).read draft) ((Field.of name get set form).ofValue draft) :=
  map_follows_at d form.read form.ofValue (set draft) follows

theorem of_follows (follows : Follows form.read form.ofValue) (draft : σ) :
    Follows ((Field.of name get set form).read draft) ((Field.of name get set form).ofValue draft) :=
  map_follows form.read form.ofValue (set draft) follows

variable {β : Type} (name' : String) (get' : σ → Option β) (set' : σ → β → σ) (form' : Form β)

theorem of_undisturbed (keeps : ∀ draft a, get' (set draft a) = get' draft)
    (swaps : ∀ draft a b, set' (set draft a) b = set (set' draft b) a) :
    Undisturbed (Field.of name get set form) (Field.of name' get' set' form') := by
  refine ⟨?_, ?_⟩
  · intro draft next v taken
    obtain ⟨a, _, rfl⟩ := map_eq_ok taken
    simp [Field.of, keeps]
  · intro draft next last v w first second
    obtain ⟨a, here, rfl⟩ := map_eq_ok first
    obtain ⟨b, there, rfl⟩ := map_eq_ok second
    refine ⟨set' draft b, ?_, ?_⟩
    · change (form'.ofValue w).map (set' draft) = _
      rw [there]
      rfl
    · change (form.ofValue v).map (set (set' draft b)) = _
      rw [here, swaps]
      rfl

theorem of_apart (names : name ≠ name') (keeps : ∀ draft a, get' (set draft a) = get' draft)
    (keeps' : ∀ draft b, get (set' draft b) = get draft)
    (swaps : ∀ draft a b, set' (set draft a) b = set (set' draft b) a) :
    Apart (Field.of name get set form) (Field.of name' get' set' form') :=
  ⟨names, of_undisturbed name get set form name' get' set' form' keeps swaps,
    of_undisturbed name' get' set' form' name get set form keeps' fun draft b a => (swaps draft a b).symm⟩

end

theorem bound_ok {ε α β : Type} (x : Except ε α) (f : α → Except ε β) (b : β) :
    (x >>= f) = .ok b ↔ ∃ a, x = .ok a ∧ f a = .ok b := by
  cases x with
  | error e => simp [bind, Except.bind]
  | ok a => simp [bind, Except.bind]

section

variable {σ α : Type} (rc : Record σ α) (distinct : rc.Distinct)

theorem field_named (k : String) (f : Field σ) (found : rc.field? k = some f) :
    f ∈ rc.fields ∧ f.name = k :=
  ⟨List.mem_of_find?_eq_some found, by simpa using List.find?_some found⟩

def Takes (draft : σ) (ms : List (String × Value)) (last : σ) : Prop :=
  ms.foldlM rc.takeMember draft = .ok last

theorem takes_cons (draft last : σ) (m : String × Value) (ms : List (String × Value)) :
    Takes rc draft (m :: ms) last ↔ ∃ next, rc.takeMember draft m = .ok next ∧ Takes rc next ms last := by
  rw [Takes, List.foldlM_cons, bound_ok]
  rfl

theorem takes_nil (draft last : σ) : Takes rc draft [] last ↔ last = draft := by
  constructor
  · intro none
    cases none
    rfl
  · rintro rfl
    rfl

theorem take_unknown (draft : σ) (k : String) (v : Value) (unknown : rc.field? k = none) :
    rc.takeMember draft (k, v) = .ok draft := by
  rw [Record.takeMember, unknown]

theorem take_known (draft : σ) (k : String) (v : Value) (f : Field σ) (found : rc.field? k = some f) :
    rc.takeMember draft (k, v) = f.ofValue draft v := by
  rw [Record.takeMember, found]

theorem member_unknown (draft next : σ) (k : String) (s r : List Char) (missing : rc.field? k = none) :
    (rc.readMember draft k).run s = .ok (next, r) ↔ next = draft ∧ (afterColon skip).run s = .ok ((), r) := by
  rw [Record.readMember, missing]
  simp only [after_colon, map_ok]
  constructor
  · rintro ⟨text, colon, _, passed, rfl⟩
    exact ⟨rfl, text, colon, passed⟩
  · rintro ⟨rfl, text, colon, passed⟩
    exact ⟨text, colon, (), passed, rfl⟩

theorem member_known (draft next : σ) (k : String) (s r : List Char) (f : Field σ)
    (found : rc.field? k = some f) :
    (rc.readMember draft k).run s = .ok (next, r) ↔
      f.filled draft = false ∧ (afterColon (f.read draft)).run s = .ok (next, r) := by
  rw [Record.readMember, found]
  cases vacant : f.filled draft with
  | true =>
      simp only [vacant, if_true, Bool.true_eq_false, false_and, iff_false]
      intro read
      cases read
  | false => simp [vacant]

include distinct

theorem fields_undisturbed (k l : String) (f g : Field σ) (first : rc.field? k = some f)
    (second : rc.field? l = some g) (different : k ≠ l) : Undisturbed f g := by
  obtain ⟨here, rfl⟩ := field_named rc k f first
  obtain ⟨there, rfl⟩ := field_named rc l g second
  have other : f ≠ g := by
    rintro rfl
    exact different rfl
  exact (distinct.apart.forall here there other).before

theorem member_fills (draft next : σ) (k : String) (v : Value) (f : Field σ)
    (found : rc.field? k = some f) (taken : rc.takeMember draft (k, v) = .ok next) :
    f.filled next = true := by
  rw [take_known rc draft k v f found] at taken
  exact distinct.fills f (field_named rc k f found).1 draft next v taken

theorem member_keeps (draft next : σ) (k l : String) (v : Value) (g : Field σ) (found : rc.field? l = some g)
    (different : k ≠ l) (taken : rc.takeMember draft (k, v) = .ok next) :
    g.filled next = g.filled draft := by
  cases known : rc.field? k with
  | none =>
      rw [take_unknown rc draft k v known] at taken
      cases taken
      rfl
  | some f =>
      rw [take_known rc draft k v f known] at taken
      exact (fields_undisturbed rc distinct k l f g known found different).keeps draft next v taken

theorem members_swap (draft next last : σ) (k l : String) (v w : Value) (different : k ≠ l)
    (first : rc.takeMember draft (k, v) = .ok next) (second : rc.takeMember next (l, w) = .ok last) :
    ∃ between, rc.takeMember draft (l, w) = .ok between ∧ rc.takeMember between (k, v) = .ok last := by
  cases here : rc.field? k with
  | none =>
      rw [take_unknown rc draft k v here] at first
      cases first
      exact ⟨last, second, take_unknown rc last k v here⟩
  | some f =>
      cases there : rc.field? l with
      | none =>
          rw [take_unknown rc next l w there] at second
          cases second
          exact ⟨draft, take_unknown rc draft l w there, first⟩
      | some g =>
          rw [take_known rc draft k v f here] at first
          rw [take_known rc next l w g there] at second
          obtain ⟨between, early, late⟩ :=
            (fields_undisturbed rc distinct k l f g here there different).swaps draft next last v w first second
          exact ⟨between, (take_known rc draft l w g there).trans early,
            (take_known rc between k v f here).trans late⟩

theorem takes_last (draft last : σ) (k : String) (w : Value) (ms : List (String × Value))
    (fresh : k ∉ ms.map Prod.fst) :
    Takes rc draft ((k, w) :: ms) last ↔
      ∃ next, Takes rc draft ms next ∧ rc.takeMember next (k, w) = .ok last := by
  induction ms generalizing draft with
  | nil => simp [takes_cons, takes_nil]
  | cons m ms ih =>
    obtain ⟨l, v⟩ := m
    simp only [List.map_cons, List.mem_cons, not_or] at fresh
    obtain ⟨different, fresh⟩ := fresh
    constructor
    · intro taken
      obtain ⟨early, first, taken⟩ := (takes_cons rc draft last _ _).mp taken
      obtain ⟨between, second, taken⟩ := (takes_cons rc early last _ _).mp taken
      obtain ⟨next, here, there⟩ := members_swap rc distinct draft early between k l w v different first second
      have moved := (takes_cons rc next last _ _).mpr ⟨between, there, taken⟩
      obtain ⟨final, others, late⟩ := (ih next fresh).mp moved
      exact ⟨final, (takes_cons rc draft final _ _).mpr ⟨next, here, others⟩, late⟩
    · rintro ⟨final, taken, late⟩
      obtain ⟨next, here, others⟩ := (takes_cons rc draft final _ _).mp taken
      obtain ⟨between, there, taken⟩ :=
        (takes_cons rc next last _ _).mp ((ih next fresh).mpr ⟨final, others, late⟩)
      obtain ⟨early, first, second⟩ :=
        members_swap rc distinct draft next between l k v w (Ne.symm different) here there
      have moved := (takes_cons rc early last _ _).mpr ⟨between, second, taken⟩
      exact (takes_cons rc draft last _ _).mpr ⟨early, first, moved⟩

-- `setMember` walks past smaller names and puts the member before the first larger one.
theorem takes_set (draft last : σ) (k : String) (w : Value) (ms : List (String × Value))
    (fresh : k ∉ ms.map Prod.fst) :
    Takes rc draft (setMember k w ms) last ↔
      ∃ next, Takes rc draft ms next ∧ rc.takeMember next (k, w) = .ok last := by
  induction ms generalizing draft with
  | nil => exact takes_last rc distinct draft last k w [] fresh
  | cons m ms ih =>
    obtain ⟨l, v⟩ := m
    have other : k ≠ l ∧ k ∉ ms.map Prod.fst := by simpa using fresh
    rw [setMember, if_neg other.1]
    split
    · exact takes_last rc distinct draft last k w ((l, v) :: ms) fresh
    · simp only [takes_cons, ih _ other.2]
      constructor
      · rintro ⟨next, first, final, others, late⟩
        exact ⟨final, ⟨next, first, others⟩, late⟩
      · rintro ⟨final, ⟨next, first, others⟩, late⟩
        exact ⟨next, first, final, others, late⟩

omit distinct in
theorem takes_set_unknown (draft last : σ) (k : String) (w : Value) (ms : List (String × Value))
    (unknown : rc.field? k = none) :
    Takes rc draft (setMember k w ms) last ↔ Takes rc draft ms last := by
  have skipped (ms : List (String × Value)) (draft : σ) (v : Value) :
      Takes rc draft ((k, v) :: ms) last ↔ Takes rc draft ms last := by
    simp [takes_cons, take_unknown rc draft k v unknown]
  induction ms generalizing draft with
  | nil => exact skipped [] draft w
  | cons m ms ih =>
    obtain ⟨l, v⟩ := m
    rw [setMember]
    split_ifs with same before
    · subst same
      rw [skipped, skipped]
    · exact skipped _ draft w
    · simp only [takes_cons, ih]

omit distinct in
theorem set_names (k l : String) (w : Value) (ms : List (String × Value))
    (member : l ∈ (setMember k w ms).map Prod.fst) : l = k ∨ l ∈ ms.map Prod.fst := by
  induction ms with
  | nil => simpa [setMember] using member
  | cons m ms ih =>
    rw [setMember] at member
    split_ifs at member with same before
    · simp only [List.map_cons, List.mem_cons] at member ⊢
      exact member.imp_right .inr
    · simpa using member
    · simp only [List.map_cons, List.mem_cons] at member ⊢
      obtain here | later := member
      · exact .inr (.inl here)
      · exact (ih later).imp_right .inr

theorem takes_filled (draft last : σ) (k : String) (f : Field σ) (ms : List (String × Value))
    (found : rc.field? k = some f) (taken : Takes rc draft ms last) :
    f.filled last = true ↔ f.filled draft = true ∨ k ∈ ms.map Prod.fst := by
  induction ms generalizing draft with
  | nil =>
    rw [(takes_nil rc draft last).mp taken]
    simp
  | cons m ms ih =>
    obtain ⟨l, v⟩ := m
    obtain ⟨next, first, others⟩ := (takes_cons rc draft last _ _).mp taken
    rw [ih next others]
    by_cases same : l = k
    · subst same
      simp [member_fills rc distinct draft next l v f found first]
    · rw [member_keeps rc distinct draft next l k v f found same first]
      simp [Ne.symm same]

inductive Taken {σ α : Type} (rc : Record σ α) : σ → List (String × Value) → σ → Prop where
  | done (draft : σ) : Taken rc draft [] draft
  | unknown (draft last : σ) (k : String) (v : Value) (ms : List (String × Value))
      (missing : rc.field? k = none) (later : Taken rc draft ms last) : Taken rc draft ((k, v) :: ms) last
  | known (draft next last : σ) (k : String) (v : Value) (ms : List (String × Value)) (f : Field σ)
      (found : rc.field? k = some f) (vacant : f.filled draft = false)
      (value : f.ofValue draft v = .ok next) (later : Taken rc next ms last) :
      Taken rc draft ((k, v) :: ms) last

def setAll (ms acc : List (String × Value)) : List (String × Value) :=
  ms.foldl (fun acc m => setMember m.1 m.2 acc) acc

-- `acc` holds the members set so far, in the order of their names.
theorem taken_sorted (draft start last : σ) (ms acc : List (String × Value))
    (taken : Taken rc draft ms last) (before : Takes rc start acc draft) :
    Takes rc start (setAll ms acc) last := by
  induction taken generalizing acc with
  | done draft => exact before
  | unknown draft last k v ms missing _ ih =>
      exact ih _ ((takes_set_unknown rc start draft k v acc missing).mpr before)
  | known draft next last k v ms f found vacant value _ ih =>
      have fresh : k ∉ acc.map Prod.fst := by
        intro member
        have filled := (takes_filled rc distinct start draft k f acc found before).mpr (.inr member)
        rw [vacant] at filled
        cases filled
      refine ih _ ((takes_set rc distinct start next k v acc fresh).mpr ⟨draft, before, ?_⟩)
      rw [take_known rc draft k v f found, value]

theorem sorted_taken (last : σ) (ms acc : List (String × Value)) (once : (ms.map Prod.fst).Nodup)
    (fresh : ∀ k ∈ ms.map Prod.fst, k ∉ acc.map Prod.fst) (all : Takes rc rc.blank (setAll ms acc) last) :
    ∃ draft, Takes rc rc.blank acc draft ∧ Taken rc draft ms last := by
  induction ms generalizing acc with
  | nil => exact ⟨last, all, .done last⟩
  | cons m ms ih =>
    obtain ⟨k, v⟩ := m
    simp only [List.map_cons, List.nodup_cons, List.mem_cons, forall_eq_or_imp] at once fresh
    obtain ⟨alone, once⟩ := once
    obtain ⟨here, fresh⟩ := fresh
    have apart : ∀ l ∈ ms.map Prod.fst, l ∉ (setMember k v acc).map Prod.fst := by
      intro l member inside
      obtain rfl | earlier := set_names k l v acc inside
      · exact alone member
      · exact fresh l member earlier
    obtain ⟨next, before, later⟩ := ih (setMember k v acc) once apart all
    cases known : rc.field? k with
    | none =>
        have before := (takes_set_unknown rc _ next k v acc known).mp before
        exact ⟨next, before, .unknown next last k v ms known later⟩
    | some f =>
        obtain ⟨draft, others, taken⟩ := (takes_set rc distinct _ next k v acc here).mp before
        rw [take_known rc draft k v f known] at taken
        have vacant : f.filled draft = false := by
          refine Bool.eq_false_iff.mpr fun filled => ?_
          obtain blank | earlier := (takes_filled rc distinct _ draft k f acc known others).mp filled
          · rw [distinct.vacant f (field_named rc k f known).1] at blank
            cases blank
          · exact here earlier
        exact ⟨draft, others, .known draft next last k v ms f known vacant taken later⟩

end

def sortedValues (ms : List (String × Value)) : List (String × Value) := ms.map fun m => (m.1, m.2.sorted)

theorem sorted_names (ms : List (String × Value)) : (sortedValues ms).map Prod.fst = ms.map Prod.fst := by
  rw [sortedValues, List.map_map]
  rfl

section

variable {σ α : Type} (rc : Record σ α) (d : Nat)

theorem unknown_read (draft : σ) (k : String) (s r : List Char) (v : Value)
    (written : (afterColon (asWritten d)).run s = .ok (v, r)) (missing : rc.field? k = none) :
    (rc.readMember draft k).run s = .ok (draft, r) := by
  obtain ⟨text, colon, value⟩ := (after_colon _ s r v).mp written
  have passed := (after_colon skip s r ()).mpr ⟨text, colon, skip_written d text r v value⟩
  exact (member_unknown rc draft draft k s r missing).mpr ⟨rfl, passed⟩

variable (follows : rc.FollowsAt d)
include follows

theorem member_agrees (draft next : σ) (k : String) (s r rest : List Char) (v : Value)
    (written : (afterColon (asWritten d)).run s = .ok (v, r))
    (read : (rc.readMember draft k).run s = .ok (next, rest)) :
    rest = r ∧ ((rc.field? k = none ∧ next = draft) ∨
      ∃ f, rc.field? k = some f ∧ f.filled draft = false ∧ f.ofValue draft v.sorted = .ok next) := by
  obtain ⟨text, colon, value⟩ := (after_colon _ s r v).mp written
  cases known : rc.field? k with
  | none =>
      obtain ⟨rfl, passed⟩ := (member_unknown rc draft next k s rest known).mp read
      obtain ⟨_, same, skipped⟩ := (after_colon _ s rest ()).mp passed
      cases colon.symm.trans same
      rw [skip_written d text r v value] at skipped
      cases skipped
      exact ⟨rfl, .inl ⟨rfl, rfl⟩⟩
  | some f =>
      obtain ⟨vacant, passed⟩ := (member_known rc draft next k s rest f known).mp read
      obtain ⟨_, same, taken⟩ := (after_colon _ s rest next).mp passed
      cases colon.symm.trans same
      have field := follows f (field_named rc k f known).1 draft
      obtain ⟨same, filled⟩ := field.agrees text r rest v next value taken
      exact ⟨same, .inr ⟨f, rfl, vacant, filled⟩⟩

theorem entries_agree (draft last : σ) (first : Bool) (s r rest : List Char)
    (ms : List (String × Value)) (written : Entries (asWritten d) first s ms r)
    (read : members kept rc.readMember draft first s = .ok (last, rest)) :
    rest = r ∧ Taken rc draft (sortedValues ms) last := by
  induction written generalizing draft with
  | closed first s r next =>
      obtain ⟨same, rfl⟩ | ⟨k, text, _, _, other, _⟩ := members_turn _ _ _ _ _ _ _ read
      · rw [next] at same
        cases same
        exact ⟨rfl, .done last⟩
      · rw [next] at other
        cases other
  | entry first s text left r k v ms next value _ ih =>
      obtain ⟨other, _⟩ | ⟨k', text', filled, after, same, taken, later⟩ := members_turn _ _ _ _ _ _ _ read
      · rw [next] at other
        cases other
      · rw [next] at same
        cases same
        obtain ⟨rfl, how⟩ := member_agrees rc d follows draft filled k text left after v value taken
        obtain ⟨rfl, others⟩ := ih filled later
        refine ⟨rfl, ?_⟩
        obtain ⟨missing, rfl⟩ | ⟨f, found, vacant, here⟩ := how
        · exact .unknown filled last k v.sorted _ missing others
        · exact .known draft filled last k v.sorted _ f found vacant here others

theorem known_read (draft next : σ) (k : String) (s r : List Char) (v : Value) (f : Field σ)
    (written : (afterColon (asWritten d)).run s = .ok (v, r)) (found : rc.field? k = some f)
    (vacant : f.filled draft = false) (once : ¬ v.Repeats) (taken : f.ofValue draft v.sorted = .ok next) :
    (rc.readMember draft k).run s = .ok (next, r) := by
  obtain ⟨text, colon, value⟩ := (after_colon _ s r v).mp written
  have field := follows f (field_named rc k f found).1 draft
  have read := field.reads text r v next value once taken
  exact (member_known rc draft next k s r f found).mpr
    ⟨vacant, (after_colon _ s r next).mpr ⟨text, colon, read⟩⟩

theorem entries_read (draft last : σ) (first : Bool) (s r : List Char)
    (ms : List (String × Value)) (written : Entries (asWritten d) first s ms r)
    (once : ∀ m ∈ ms, ¬ m.2.Repeats) (taken : Taken rc draft (sortedValues ms) last) :
    members kept rc.readMember draft first s = .ok (last, r) := by
  induction written generalizing draft with
  | closed first s r next =>
      cases taken
      exact members_closed kept _ _ first s r next
  | entry first s text rest r k v ms next value _ ih =>
      have others : ∀ m ∈ ms, ¬ m.2.Repeats := fun m member => once m (by simp [member])
      cases taken with
      | unknown _ _ _ _ _ missing later =>
          have read := unknown_read rc d draft k text rest v value missing
          exact members_step _ draft draft last first k s text rest r next read (ih draft others later)
      | known _ filled _ _ _ _ f found vacant here later =>
          have read := known_read rc d follows draft filled k text rest v f value found vacant
            (once (k, v) (by simp)) here
          exact members_step _ draft filled last first k s text rest r next read (ih filled others later)

theorem object_agrees (distinct : rc.Distinct) (last : σ) (s r rest : List Char) (ms : List (String × Value))
    (written : Entries (asWritten d) true s ms r)
    (read : members kept rc.readMember rc.blank true s = .ok (last, rest)) :
    rest = r ∧ Takes rc rc.blank (setAll (sortedValues ms) []) last := by
  obtain ⟨same, taken⟩ := entries_agree rc d follows rc.blank last true s r rest ms written read
  have none : Takes rc rc.blank [] rc.blank := (takes_nil rc _ _).mpr rfl
  exact ⟨same, taken_sorted rc distinct rc.blank rc.blank last _ [] taken none⟩

theorem object_read (distinct : rc.Distinct) (last : σ) (s r : List Char) (ms : List (String × Value))
    (written : Entries (asWritten d) true s ms r) (once : ¬ (Value.object ms).Repeats)
    (all : Takes rc rc.blank (setAll (sortedValues ms) []) last) :
    members kept rc.readMember rc.blank true s = .ok (last, r) := by
  have apart : ((sortedValues ms).map Prod.fst).Nodup := by
    rw [sorted_names]
    by_contra twice
    exact once (.here ms twice)
  obtain ⟨draft, none, taken⟩ := sorted_taken rc distinct last _ [] apart (by simp) all
  rw [(takes_nil rc _ _).mp none] at taken
  apply entries_read rc d follows rc.blank last true s r ms written _ taken
  intro m member inside
  exact once (.member ms m member inside)

end

theorem list_ended (s r : List Char) : Record.listEnd s = .ok r ↔ skipSpace s = ']' :: r := by
  rw [Record.listEnd]
  constructor
  · intro ended
    split at ended
    · cases ended
    · rename_i bracket
      cases ended
      exact bracket
    · split at ended
      · cases ended
      · cases ended
    · cases ended
  · intro bracket
    rw [bracket]
    rfl

theorem element_ended (first : Bool) (s r : List Char) :
    nextElement kept first s = .ok (false, r) ↔ skipSpace s = ']' :: r := by
  rw [nextElement]
  constructor
  · intro ended
    split at ended
    · cases ended
    · rename_i bracket
      cases ended
      exact bracket
    · split_ifs at ended
      · cases ended
      · split at ended
        · cases ended
        · split at ended
          · cases ended
          · cases ended
  · intro bracket
    rw [bracket]
    rfl

section

variable {σ : Type} (d : Nat) (fs : List (Field σ))
  (follows : ∀ f ∈ fs, ∀ draft, FollowsAt d (f.read draft) (f.ofValue draft))
include follows

theorem order_agrees (draft last : σ) (first : Bool) (s r rest : List Char) (vs : List Value)
    (written : Items kept (asWritten d) first s vs r)
    (read : Record.readInOrder fs draft first s = .ok (last, rest)) :
    rest = r ∧ vs.length ≤ fs.length ∧ Record.takeInOrder fs draft (vs.map Value.sorted) = .ok last := by
  induction fs generalizing draft first s vs with
  | nil =>
    obtain ⟨after, ended, same⟩ := map_eq_ok read
    cases same
    have closed := (element_ended first s rest).mpr ((list_ended s rest).mp ended)
    cases written with
    | closed _ _ _ next =>
        rw [closed] at next
        cases next
        exact ⟨rfl, Nat.le_refl 0, rfl⟩
    | item _ _ _ _ _ _ _ next =>
        rw [closed] at next
        cases next
  | cons f fs ih =>
    rw [Record.readInOrder] at read
    cases written with
    | closed _ _ _ next =>
        rw [next] at read
        cases read
        exact ⟨rfl, Nat.zero_le _, rfl⟩
    | item _ _ text left _ v vs next value later =>
        rw [next] at read
        simp only at read
        split at read
        · cases read
        · rename_i filled after taken
          obtain ⟨rfl, here⟩ := (follows f (by simp) draft).agrees text left after v filled value taken
          obtain ⟨rfl, short, others⟩ :=
            ih (fun g member => follows g (by simp [member])) filled false after vs later read
          refine ⟨rfl, Nat.succ_le_succ short, ?_⟩
          rw [List.map_cons, Record.takeInOrder, here]
          exact others

theorem order_read (draft last : σ) (first : Bool) (s r : List Char) (vs : List Value)
    (written : Items kept (asWritten d) first s vs r) (once : ∀ v ∈ vs, ¬ v.Repeats)
    (short : vs.length ≤ fs.length) (taken : Record.takeInOrder fs draft (vs.map Value.sorted) = .ok last) :
    Record.readInOrder fs draft first s = .ok (last, r) := by
  induction fs generalizing draft first s vs with
  | nil =>
    cases List.length_eq_zero_iff.mp (Nat.le_zero.mp short)
    cases taken
    cases written with
    | closed _ _ _ next =>
        rw [Record.readInOrder, (list_ended s r).mpr ((element_ended first s r).mp next)]
        rfl
  | cons f fs ih =>
    rw [Record.readInOrder]
    cases written with
    | closed _ _ _ next =>
        cases taken
        rw [next]
    | item _ _ text left _ v vs next value later =>
        rw [List.map_cons, Record.takeInOrder, bound_ok] at taken
        obtain ⟨filled, here, others⟩ := taken
        have read := (follows f (by simp) draft).reads text left v filled value (once v (by simp)) here
        rw [next]
        simp only [read]
        exact ih (fun g member => follows g (by simp [member])) filled false left vs later
          (fun w member => once w (by simp [member])) (Nat.le_of_succ_le_succ short) others

end

section

variable {σ α : Type} (rc : Record σ α)

theorem complete_ok (cause : String → Cause) (x : Except Fault (σ × List Char)) (a : α) (r : List Char) :
    rc.completeAfter cause x = .ok (a, r) ↔ ∃ draft, x = .ok (draft, r) ∧ rc.complete draft = .ok a := by
  constructor
  · intro read
    obtain ⟨draft, rfl⟩ := Record.completeAfter_eq_ok read
    rw [Record.completeAfter] at read
    split at read
    · cases read
    · rename_i complete
      cases read
      exact ⟨draft, rfl, complete⟩
  · rintro ⟨draft, rfl, complete⟩
    rw [Record.completeAfter, complete]

theorem map_error_ok {ε ε' α : Type} (x : Except ε α) (f : ε → ε') (a : α) :
    x.mapError f = .ok a ↔ x = .ok a := by
  cases x <;> simp [Except.mapError]

theorem object_value (ms : List (String × Value)) (a : α) :
    rc.form.ofValue (.object ms) = .ok a ↔ ∃ draft, Takes rc rc.blank ms draft ∧ rc.complete draft = .ok a := by
  change (ms.foldlM rc.takeMember rc.blank >>= fun draft => (rc.complete draft).mapError Cause.missing) = _ ↔ _
  simp only [bound_ok, map_error_ok]
  rfl

theorem listed_value (vs : List Value) (a : α) :
    rc.form.ofValue (.list vs) = .ok a ↔ vs.length ≤ rc.fields.length ∧
      ∃ draft, Record.takeInOrder rc.fields rc.blank vs = .ok draft ∧ rc.complete draft = .ok a := by
  change (Record.takeInOrder rc.fields rc.blank vs >>= fun draft =>
    (rc.complete draft).mapError rc.shortList >>= fun a =>
      if rc.fields.length < vs.length then .error (.wrongLength vs.length "fewer elements in array")
      else .ok a) = _ ↔ _
  simp only [bound_ok, map_error_ok]
  constructor
  · rintro ⟨draft, taken, b, complete, fits⟩
    split at fits
    · cases fits
    · cases fits
      exact ⟨by omega, draft, taken, complete⟩
  · rintro ⟨fits, draft, taken, complete⟩
    exact ⟨draft, taken, a, complete, if_neg (by omega)⟩

theorem record_follows_at (distinct : rc.Distinct) (d : Nat) (inside : ∀ e, d = e + 1 → rc.FollowsAt e) :
    FollowsAt d rc.form.read rc.form.ofValue := by
  have listed (s text : List Char) (bracket : skipSpace s = '[' :: text) : rc.form.read.run s =
      rc.completeAfter rc.shortList (Record.readInOrder rc.fields rc.blank true text) :=
    bracketed_list _ _ _ s text bracket
  have keyed (s text : List Char) (brace : skipSpace s = '{' :: text) : rc.form.read.run s =
      rc.completeAfter .missing (members kept rc.readMember rc.blank true text) :=
    bracketed_object _ _ _ s text brace
  refine ⟨?_, ?_⟩
  · intro s r rest v a written read
    cases spelled d s r v written with
    | scalar d s r x plain found =>
        change bracketed _ _ _ s = _ at read
        rw [bracketed_plain _ _ _ s plain, found] at read
        cases read
    | list d s text r vs bracket items =>
        rw [listed s text bracket, complete_ok] at read
        obtain ⟨draft, read, complete⟩ := read
        obtain ⟨same, short, taken⟩ :=
          order_agrees d rc.fields (inside d rfl) rc.blank draft true text r rest vs items read
        rw [Value.sorted, sorted_list, listed_value, List.length_map]
        exact ⟨same, short, draft, taken, complete⟩
    | object d s text r ms brace entries =>
        rw [keyed s text brace, complete_ok] at read
        obtain ⟨draft, read, complete⟩ := read
        obtain ⟨same, all⟩ := object_agrees rc d (inside d rfl) distinct draft text r rest ms entries read
        rw [Value.sorted, sorted_members, object_value]
        exact ⟨same, draft, all, complete⟩
  · intro s r v a written once taken
    cases spelled d s r v written with
    | scalar => cases taken
    | list d s text r vs bracket items =>
        rw [Value.sorted, sorted_list, listed_value, List.length_map] at taken
        obtain ⟨short, draft, taken, complete⟩ := taken
        have read := order_read d rc.fields (inside d rfl) rc.blank draft true text r vs items
          (fun v member inside => once (.element vs v member inside)) short taken
        rw [listed s text bracket, complete_ok]
        exact ⟨draft, read, complete⟩
    | object d s text r ms brace entries =>
        rw [Value.sorted, sorted_members, object_value] at taken
        obtain ⟨last, all, complete⟩ := taken
        have read := object_read rc d (inside d rfl) distinct last text r ms entries once all
        rw [keyed s text brace, complete_ok]
        exact ⟨last, read, complete⟩

theorem record_follows (lawful : rc.Lawful) : Follows rc.form.read rc.form.ofValue :=
  follows_everywhere _ _ fun d => record_follows_at rc lawful.distinct d fun e _ f member draft =>
    (lawful.follows f member draft).to e

end

end DarkDrop.Json
