import DarkDrop.Proofs.Json.ValueText

namespace DarkDrop.Json

inductive Items {α : Type} (manner : Manner) (rd : Reader α) :
    Bool → List Char → List α → List Char → Prop where
  | closed (first : Bool) (s r : List Char) (next : nextElement manner first s = .ok (false, r)) :
      Items manner rd first s [] r
  | item (first : Bool) (s text rest r : List Char) (a : α) (as : List α)
      (next : nextElement manner first s = .ok (true, text)) (read : rd.run text = .ok (a, rest))
      (later : Items manner rd false rest as r) : Items manner rd first s (a :: as) r

inductive Entries {α : Type} (rd : Reader α) :
    Bool → List Char → List (String × α) → List Char → Prop where
  | closed (first : Bool) (s r : List Char) (next : nextKey kept first s = .ok (none, r)) :
      Entries rd first s [] r
  | entry (first : Bool) (s text rest r : List Char) (k : String) (a : α) (ms : List (String × α))
      (next : nextKey kept first s = .ok (some k, text))
      (read : (afterColon rd).run text = .ok (a, rest)) (later : Entries rd false rest ms r) :
      Entries rd first s ((k, a) :: ms) r

theorem elements_iff {α : Type} (manner : Manner) (rd : Reader α) (first : Bool) (s r : List Char)
    (as : List α) : elements manner rd first s = .ok (as, r) ↔ Items manner rd first s as r := by
  constructor
  · intro read
    fun_induction elements manner rd first s generalizing as r with
    | case1 => cases read
    | case2 first s rest next =>
        cases read
        exact .closed first s rest next
    | case3 => cases read
    | case4 => cases read
    | case5 first s text next a rest value _ _ as left others ih =>
        cases read
        exact .item first s text rest left a as next value (ih left as others)
  · intro items
    induction items with
    | closed first s r next => exact elements_closed manner rd first s r next
    | item first s text rest r a as next read _ ih =>
        exact elements_step rd first s text rest r a as next read ih

theorem members_turn {σ : Type} (manner : Manner) (step : σ → String → Reader σ) (acc last : σ)
    (first : Bool) (s r : List Char) (read : members manner step acc first s = .ok (last, r)) :
    (nextKey manner first s = .ok (none, r) ∧ last = acc) ∨
      ∃ k text next rest, nextKey manner first s = .ok (some k, text) ∧
        (step acc k).run text = .ok (next, rest) ∧
        members manner step next false rest = .ok (last, r) := by
  rw [members] at read
  split at read
  · cases read
  · rename_i ended
    cases read
    exact .inl ⟨ended, rfl⟩
  · rename_i k text more
    split at read
    · cases read
    · rename_i next rest taken
      exact .inr ⟨k, text, next, rest, more, taken, read⟩

def putting {σ α : Type} (rd : Reader α) (put : σ → String → α → σ) (acc : σ) (k : String) : Reader σ :=
  (afterColon rd).map (put acc k)

theorem map_ok {α β : Type} (rd : Reader α) (f : α → β) (s r : List Char) (b : β) :
    (rd.map f).run s = .ok (b, r) ↔ ∃ a, rd.run s = .ok (a, r) ∧ b = f a := by
  simp only [Reader.map]
  split
  · rename_i failed
    simp [failed]
  · rename_i a rest read
    simp only [read, Except.ok.injEq, Prod.mk.injEq]
    constructor
    · rintro ⟨rfl, rfl⟩
      exact ⟨a, ⟨rfl, rfl⟩, rfl⟩
    · rintro ⟨_, ⟨rfl, rfl⟩, rfl⟩
      exact ⟨rfl, rfl⟩

theorem members_iff {σ α : Type} (rd : Reader α) (put : σ → String → α → σ) (acc last : σ)
    (first : Bool) (s r : List Char) :
    members kept (putting rd put) acc first s = .ok (last, r) ↔
      ∃ ms, Entries rd first s ms r ∧ last = ms.foldl (fun acc m => put acc m.1 m.2) acc := by
  constructor
  · intro read
    fun_induction members kept (putting rd put) acc first s with
    | case1 => cases read
    | case2 acc first s rest next =>
        cases read
        exact ⟨[], .closed first s r next, rfl⟩
    | case3 => cases read
    | case4 acc first s k text next _ rest taken _ _ ih =>
        obtain ⟨a, value, rfl⟩ := (map_ok _ _ _ _ _).mp taken
        obtain ⟨ms, entries, rfl⟩ := ih read
        exact ⟨(k, a) :: ms, .entry first s text rest r k a ms next value entries, rfl⟩
  · rintro ⟨ms, entries, rfl⟩
    induction entries generalizing acc with
    | closed first s r next => exact members_closed kept _ acc first s r next
    | entry first s text rest r k a ms next read _ ih =>
        exact members_step _ acc (put acc k a) _ first k s text rest r next
          ((map_ok _ _ _ _ _).mpr ⟨a, read, rfl⟩) (ih (put acc k a))

theorem after_colon {α : Type} (rd : Reader α) (s r : List Char) (a : α) :
    (afterColon rd).run s = .ok (a, r) ↔ ∃ text, skipSpace s = ':' :: text ∧ rd.run text = .ok (a, r) := by
  simp only [afterColon]
  split
  · rename_i none
    simp [none]
  · rename_i text colon
    simp [colon]
  · rename_i other
    constructor
    · intro read
      cases read
    · rintro ⟨text, colon, _⟩
      exact absurd colon (other text)

theorem mapped_ok {ε α β : Type} (x : Except ε α) (f : α → β) (b : β) :
    x.map f = .ok b ↔ ∃ a, x = .ok a ∧ f a = b := by
  refine ⟨map_eq_ok, ?_⟩
  rintro ⟨a, rfl, rfl⟩
  rfl

def reading (put : List (String × Value) → String → Value → List (String × Value)) : Nat → Reader Value
  | 0 => any 0
  | d + 1 =>
    { run := bracketed (fun r => (elements kept (reading put d) true r).map fun p => (.list p.1, p.2))
        (fun r => (members kept (putting (reading put d) put) [] true r).map fun p => (.object p.1, p.2))
        fun r => (scalar r).map fun p => (.scalar p.1, p.2)
      shorter := bracketed_shorter
        (fun h => by
          obtain ⟨x, hx, he⟩ := map_eq_ok h
          cases he
          exact elements_le (a := x.1) (r := x.2) hx)
        (fun h => by
          obtain ⟨x, hx, he⟩ := map_eq_ok h
          cases he
          exact members_le (b := x.1) (r := x.2) hx)
        fun h => by
          obtain ⟨x, hx, he⟩ := map_eq_ok h
          cases he
          exact scalar_shorter (a := x.1) (r := x.2) hx }

def asWritten : Nat → Reader Value := reading fun ms k v => ms ++ [(k, v)]

theorem any_reading (d : Nat) : any d = reading (fun ms k v => setMember k v ms) d := by
  induction d with
  | zero => rfl
  | succ d ih =>
    simp only [any, reading, ← ih]
    rfl

def Unbracketed (s : List Char) : Prop := ∀ text, skipSpace s ≠ '[' :: text ∧ skipSpace s ≠ '{' :: text

theorem bracket_cases (s : List Char) :
    (∃ text, skipSpace s = '[' :: text) ∨ (∃ text, skipSpace s = '{' :: text) ∨ Unbracketed s := by
  by_cases list : ∃ text, skipSpace s = '[' :: text
  · exact .inl list
  · by_cases object : ∃ text, skipSpace s = '{' :: text
    · exact .inr (.inl object)
    · exact .inr (.inr fun text => ⟨fun opened => list ⟨text, opened⟩, fun opened => object ⟨text, opened⟩⟩)

section

variable {α : Type} (list object other : List Char → Except Fault (α × List Char))

theorem bracketed_list (s text : List Char) (opened : skipSpace s = '[' :: text) :
    bracketed list object other s = list text := by
  rw [bracketed, opened]
  rfl

theorem bracketed_object (s text : List Char) (opened : skipSpace s = '{' :: text) :
    bracketed list object other s = object text := by
  rw [bracketed, opened]
  rfl

theorem bracketed_plain (s : List Char) (plain : Unbracketed s) :
    bracketed list object other s = other (skipSpace s) := by
  rw [bracketed]
  split
  · rename_i text opened
    exact absurd opened (plain text).1
  · rename_i text opened
    exact absurd opened (plain text).2
  · rfl

end

section

variable (put : List (String × Value) → String → Value → List (String × Value)) (d : Nat)
  (s text r : List Char) (v : Value)

theorem reading_list (opened : skipSpace s = '[' :: text) :
    (reading put (d + 1)).run s = .ok (v, r) ↔
      ∃ vs, Items kept (reading put d) true text vs r ∧ v = .list vs := by
  rw [reading]
  simp only [bracketed_list _ _ _ s text opened, mapped_ok, Prod.exists, Prod.mk.injEq, elements_iff]
  constructor
  · rintro ⟨vs, _, items, rfl, rfl⟩
    exact ⟨vs, items, rfl⟩
  · rintro ⟨vs, items, rfl⟩
    exact ⟨vs, r, items, rfl, rfl⟩

theorem reading_object (opened : skipSpace s = '{' :: text) :
    (reading put (d + 1)).run s = .ok (v, r) ↔
      ∃ ms, Entries (reading put d) true text ms r ∧
        v = .object (ms.foldl (fun acc m => put acc m.1 m.2) []) := by
  rw [reading]
  simp only [bracketed_object _ _ _ s text opened, mapped_ok, Prod.exists, Prod.mk.injEq, members_iff]
  constructor
  · rintro ⟨_, _, ⟨ms, entries, rfl⟩, rfl, rfl⟩
    exact ⟨ms, entries, rfl⟩
  · rintro ⟨ms, entries, rfl⟩
    exact ⟨_, r, ⟨ms, entries, rfl⟩, rfl, rfl⟩

theorem reading_plain (plain : Unbracketed s) :
    (reading put d).run s = .ok (v, r) ↔ ∃ x, scalar (skipSpace s) = .ok (x, r) ∧ v = .scalar x := by
  have other : (reading put d).run s = (scalar (skipSpace s)).map fun p => (.scalar p.1, p.2) := by
    cases d with
    | zero => exact bracketed_plain _ _ _ s plain
    | succ d => exact bracketed_plain _ _ _ s plain
  rw [other]
  simp only [mapped_ok, Prod.exists, Prod.mk.injEq]
  constructor
  · rintro ⟨x, _, read, rfl, rfl⟩
    exact ⟨x, read, rfl⟩
  · rintro ⟨x, read, rfl⟩
    exact ⟨x, r, read, rfl, rfl⟩

theorem reading_shallow (opened : ¬ Unbracketed s) : (reading put 0).run s ≠ .ok (v, r) := by
  obtain ⟨text, list⟩ | ⟨text, object⟩ | plain := bracket_cases s
  · change bracketed _ _ _ s ≠ _
    rw [bracketed_list _ _ _ s text list]
    nofun
  · change bracketed _ _ _ s ≠ _
    rw [bracketed_object _ _ _ s text object]
    nofun
  · exact absurd plain opened

end

inductive Spelled : Nat → List Char → Value → List Char → Prop where
  | scalar (d : Nat) (s r : List Char) (x : Scalar) (plain : Unbracketed s)
      (read : scalar (skipSpace s) = .ok (x, r)) : Spelled d s (.scalar x) r
  | list (d : Nat) (s text r : List Char) (vs : List Value) (opened : skipSpace s = '[' :: text)
      (items : Items kept (asWritten d) true text vs r) : Spelled (d + 1) s (.list vs) r
  | object (d : Nat) (s text r : List Char) (ms : List (String × Value))
      (opened : skipSpace s = '{' :: text) (entries : Entries (asWritten d) true text ms r) :
      Spelled (d + 1) s (.object ms) r

theorem members_appended (ms acc : List (String × Value)) :
    ms.foldl (fun acc m => acc ++ [(m.1, m.2)]) acc = acc ++ ms := by
  induction ms generalizing acc with
  | nil => simp
  | cons m ms ih => rw [List.foldl_cons, ih, List.append_assoc, List.singleton_append]

theorem spelled (d : Nat) (s r : List Char) (v : Value) (read : (asWritten d).run s = .ok (v, r)) :
    Spelled d s v r := by
  by_cases plain : Unbracketed s
  · obtain ⟨x, taken, rfl⟩ := (reading_plain _ d s r v plain).mp read
    exact .scalar d s r x plain taken
  · cases d with
    | zero => exact absurd read (reading_shallow _ s r v plain)
    | succ d =>
        obtain ⟨text, opened⟩ | ⟨text, opened⟩ | none := bracket_cases s
        · obtain ⟨vs, items, rfl⟩ := (reading_list _ d s text r v opened).mp read
          exact .list d s text r vs opened items
        · obtain ⟨ms, entries, rfl⟩ := (reading_object _ d s text r v opened).mp read
          rw [members_appended, List.nil_append]
          exact .object d s text r ms opened entries
        · exact absurd none plain

section

variable {α β : Type} (rd : Reader α) (other : Reader β) (f : α → β)

def ReadsThrough : Prop :=
  ∀ s r b, other.run s = .ok (b, r) ↔ ∃ a, rd.run s = .ok (a, r) ∧ b = f a

theorem items_through (through : ReadsThrough rd other f) (manner : Manner) (first : Bool)
    (s r : List Char) (bs : List β) :
    Items manner other first s bs r ↔ ∃ as, Items manner rd first s as r ∧ bs = as.map f := by
  constructor
  · intro items
    induction items with
    | closed first s r next => exact ⟨[], .closed first s r next, rfl⟩
    | item first s text rest r b bs next read _ ih =>
        obtain ⟨a, value, rfl⟩ := (through text rest b).mp read
        obtain ⟨as, later, rfl⟩ := ih
        exact ⟨a :: as, .item first s text rest r a as next value later, rfl⟩
  · rintro ⟨as, items, rfl⟩
    induction items with
    | closed first s r next => exact .closed first s r next
    | item first s text rest r a as next read _ ih =>
        exact .item first s text rest r (f a) _ next ((through text rest _).mpr ⟨a, read, rfl⟩) ih

theorem colon_through (through : ReadsThrough rd other f) :
    ReadsThrough (afterColon rd) (afterColon other) f := by
  intro s r b
  simp only [after_colon, through _ r b]
  constructor
  · rintro ⟨text, colon, a, read, rfl⟩
    exact ⟨a, ⟨text, colon, read⟩, rfl⟩
  · rintro ⟨a, ⟨text, colon, read⟩, rfl⟩
    exact ⟨text, colon, a, read, rfl⟩

theorem entries_through (through : ReadsThrough rd other f) (first : Bool) (s r : List Char)
    (ms : List (String × β)) :
    Entries other first s ms r ↔ ∃ ns, Entries rd first s ns r ∧ ms = ns.map fun m => (m.1, f m.2) := by
  have value := colon_through rd other f through
  constructor
  · intro entries
    induction entries with
    | closed first s r next => exact ⟨[], .closed first s r next, rfl⟩
    | entry first s text rest r k b ms next read _ ih =>
        obtain ⟨a, taken, rfl⟩ := (value text rest b).mp read
        obtain ⟨ns, later, rfl⟩ := ih
        exact ⟨(k, a) :: ns, .entry first s text rest r k a ns next taken later, rfl⟩
  · rintro ⟨ns, entries, rfl⟩
    induction entries with
    | closed first s r next => exact .closed first s r next
    | entry first s text rest r k a ns next read _ ih =>
        exact .entry first s text rest r k (f a) _ next ((value text rest _).mpr ⟨a, read, rfl⟩) ih

end

theorem sorted_list (vs : List Value) : sortedList vs = vs.map Value.sorted := by
  induction vs with
  | nil => rfl
  | cons v vs ih => rw [sortedList, ih, List.map_cons]

theorem sorted_members (ms acc : List (String × Value)) :
    sortedMembers acc ms =
      (ms.map fun m => (m.1, m.2.sorted)).foldl (fun acc m => setMember m.1 m.2 acc) acc := by
  induction ms generalizing acc with
  | nil => rfl
  | cons m ms ih =>
    obtain ⟨k, v⟩ := m
    rw [sortedMembers, ih, List.map_cons, List.foldl_cons]

theorem plain_through (d : Nat) (s r : List Char) (w : Value) (plain : Unbracketed s) :
    (any d).run s = .ok (w, r) ↔ ∃ v, (asWritten d).run s = .ok (v, r) ∧ w = v.sorted := by
  rw [any_reading]
  simp only [asWritten, reading_plain _ _ s r _ plain]
  constructor
  · rintro ⟨x, read, rfl⟩
    exact ⟨_, ⟨x, read, rfl⟩, rfl⟩
  · rintro ⟨_, ⟨x, read, rfl⟩, rfl⟩
    exact ⟨x, read, rfl⟩

-- A generic value is read from the same texts, and keeps of each object what sorting leaves.
theorem any_as_written (d : Nat) : ReadsThrough (asWritten d) (any d) Value.sorted := by
  induction d with
  | zero =>
    intro s r w
    by_cases plain : Unbracketed s
    · exact plain_through 0 s r w plain
    · constructor
      · intro read
        exact absurd read (reading_shallow (fun ms k v => setMember k v ms) s r w plain)
      · rintro ⟨v, read, _⟩
        exact absurd read (reading_shallow _ s r v plain)
  | succ d ih =>
    rw [any_reading] at ih ⊢
    intro s r w
    obtain ⟨text, opened⟩ | ⟨text, opened⟩ | plain := bracket_cases s
    · have items := items_through _ _ _ ih kept true text r
      simp only [asWritten, reading_list _ d s text r _ opened] at items ⊢
      constructor
      · rintro ⟨ws, read, rfl⟩
        obtain ⟨vs, taken, rfl⟩ := (items ws).mp read
        exact ⟨_, ⟨vs, taken, rfl⟩, by rw [Value.sorted, sorted_list]⟩
      · rintro ⟨_, ⟨vs, taken, rfl⟩, rfl⟩
        exact ⟨_, (items _).mpr ⟨vs, taken, rfl⟩, by rw [Value.sorted, sorted_list]⟩
    · have entries := entries_through _ _ _ ih true text r
      simp only [asWritten, reading_object _ d s text r _ opened] at entries ⊢
      constructor
      · rintro ⟨ns, read, rfl⟩
        obtain ⟨ms, taken, rfl⟩ := (entries ns).mp read
        refine ⟨_, ⟨ms, taken, rfl⟩, ?_⟩
        rw [members_appended, List.nil_append, Value.sorted, sorted_members]
      · rintro ⟨_, ⟨ms, taken, rfl⟩, rfl⟩
        refine ⟨_, (entries _).mpr ⟨ms, taken, rfl⟩, ?_⟩
        rw [members_appended, List.nil_append, Value.sorted, sorted_members]
    · rw [← any_reading]
      exact plain_through (d + 1) s r w plain

end DarkDrop.Json
