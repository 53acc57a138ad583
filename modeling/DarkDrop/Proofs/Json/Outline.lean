import DarkDrop.Proofs.Json.Shape
import DarkDrop.Proofs.Json.Skippable

namespace DarkDrop.Json

-- A reader that gets from every text what can be taken out of the generic value of the text.
def Sighted {α : Type} (d : Nat) (rd : Reader α) (take : Value → Except Cause α) : Prop :=
  ∀ s r a, rd.run s = .ok (a, r) ↔ ∃ v, (asWritten d).run s = .ok (v, r) ∧ take v.sorted = .ok a

theorem any_sighted (d : Nat) : Sighted d (Form.any d).read (Form.any d).ofValue := by
  intro s r w
  refine (any_as_written d s r w).trans (exists_congr fun v => and_congr_right fun _ => ?_)
  exact ⟨fun same => by rw [same]; rfl, fun taken => (Except.ok.inj taken).symm⟩

theorem scalar_sighted {α : Type} (d : Nat) (wanted : String) (accept : Scalar → Except Cause α) :
    Sighted d (Form.scalar wanted accept).read (Form.scalar wanted accept).ofValue := by
  have follows := (scalar_follows wanted accept).to d
  intro s r a
  constructor
  · intro read
    obtain ⟨text, opened⟩ | ⟨text, opened⟩ | plain := bracket_cases s
    · change bracketed _ _ _ s = _ at read
      rw [bracketed_list _ _ _ s text opened] at read
      cases read
    · change bracketed _ _ _ s = _ at read
      rw [bracketed_object _ _ _ s text opened] at read
      cases read
    · have given := read
      change bracketed _ _ _ s = _ at read
      rw [bracketed_plain _ _ _ s plain] at read
      cases found : scalar (skipSpace s) with
      | error e =>
          rw [found] at read
          cases read
      | ok p =>
          have written : (asWritten d).run s = .ok (.scalar p.1, p.2) :=
            (reading_plain _ d s p.2 _ plain).mpr ⟨p.1, found, rfl⟩
          obtain ⟨rfl, taken⟩ := follows.agrees s p.2 r _ a written given
          exact ⟨_, written, taken⟩
  · rintro ⟨v, written, taken⟩
    refine follows.reads s r v a written ?_ taken
    cases v with
    | scalar =>
        intro repeats
        cases repeats
    | list | object => cases taken

theorem optional_sighted {α : Type} (d : Nat) (form : Form α) (sighted : Sighted d form.read form.ofValue) :
    Sighted d form.optional.read form.optional.ofValue := by
  intro s r a
  by_cases letter : ∃ text, skipSpace s = 'n' :: text
  · obtain ⟨text, letter⟩ := letter
    rw [optional_null form s text letter]
    constructor
    · intro read
      obtain ⟨rest, word, same⟩ := map_eq_ok read
      cases same
      have plain : Unbracketed s := fun other => by simp [letter]
      refine ⟨.scalar .null, (reading_plain _ d s r _ plain).mpr ⟨.null, ?_, rfl⟩, rfl⟩
      rw [letter, scalar, if_pos rfl, word]
      rfl
    · rintro ⟨v, written, taken⟩
      obtain ⟨rfl, word⟩ := null_written d s text r v letter written
      cases taken
      rw [word]
      rfl
  · have solid : ∀ text, skipSpace s ≠ 'n' :: text := fun text here => letter ⟨text, here⟩
    rw [optional_other form s solid, map_ok]
    simp only [sighted _ r, written_space]
    constructor
    · rintro ⟨x, ⟨v, written, taken⟩, rfl⟩
      have present := present_written d s r v solid written
      exact ⟨v, written, by rw [optional_present form v.sorted present, taken]; rfl⟩
    · rintro ⟨v, written, taken⟩
      rw [optional_present form v.sorted (present_written d s r v solid written)] at taken
      obtain ⟨x, value, rfl⟩ := map_eq_ok taken
      exact ⟨x, ⟨v, written, value⟩, rfl⟩

theorem map_sighted {α β : Type} (d : Nat) (rd : Reader α) (take : Value → Except Cause α) (f : α → β)
    (sighted : Sighted d rd take) : Sighted d (rd.map f) fun v => (take v).map f := by
  intro s r b
  simp only [map_ok, mapped_ok, sighted s r]
  constructor
  · rintro ⟨a, ⟨v, written, taken⟩, rfl⟩
    exact ⟨v, written, a, taken, rfl⟩
  · rintro ⟨v, written, a, taken, rfl⟩
    exact ⟨a, ⟨v, written, taken⟩, rfl⟩

def glimpse (d : Nat) : Reader (Option Value) where
  run s := match (asWritten d).run s with
    | .ok (v, r) => .ok (some v, r)
    | .error _ => (skip.map fun _ => none).run s
  shorter {s o r} h := by
    split at h
    · rename_i read
      cases h
      exact (asWritten d).shorter read
    · exact (skip.map fun _ => none).shorter h

theorem glimpse_some (d : Nat) (s r : List Char) (v : Value) :
    (glimpse d).run s = .ok (some v, r) ↔ (asWritten d).run s = .ok (v, r) := by
  simp only [glimpse]
  cases (asWritten d).run s with
  | ok p => simp [Prod.ext_iff]
  | error e =>
      simp only [map_ok, reduceCtorEq, iff_false]
      rintro ⟨_, _, same⟩
      cases same

theorem glimpse_skipped (d : Nat) (s r : List Char) :
    (∃ o, (glimpse d).run s = .ok (o, r)) ↔ skip.run s = .ok ((), r) := by
  constructor
  · rintro ⟨o, seen⟩
    cases o with
    | some v => exact skip_written d s r v ((glimpse_some d s r v).mp seen)
    | none =>
        simp only [glimpse] at seen
        split at seen
        · cases seen
        · obtain ⟨_, passed, _⟩ := (map_ok _ _ s r none).mp seen
          exact passed
  · intro passed
    cases written : (asWritten d).run s with
    | ok p =>
        obtain ⟨v, rest⟩ := p
        cases (skip_written d s rest v written).symm.trans passed
        exact ⟨some v, (glimpse_some d s r v).mpr written⟩
    | error e =>
        refine ⟨none, ?_⟩
        simp only [glimpse, written]
        exact (map_ok _ _ s r none).mpr ⟨(), passed, rfl⟩

section

variable {σ α : Type} (rc : Record σ α)

def Record.Sighted (d : Nat) : Prop :=
  ∀ f ∈ rc.fields, ∀ draft, Json.Sighted d (f.read draft) (f.ofValue draft)

def fillings (ms : List (String × Option Value)) : List (String × Value) :=
  ms.filterMap fun m => if (rc.field? m.1).isSome then m.2.map fun v => (m.1, v.sorted) else none

structure Gathers (draft : σ) (ms : List (String × Option Value)) (last : σ) : Prop where
  kept : ∀ m ∈ ms, (rc.field? m.1).isSome → m.2.isSome
  once : ((fillings rc ms).map Prod.fst).Nodup
  vacant : ∀ m ∈ fillings rc ms, ∀ f, rc.field? m.1 = some f → f.filled draft = false
  taken : Takes rc draft (fillings rc ms) last

theorem fillings_unknown (k : String) (o : Option Value) (ms : List (String × Option Value))
    (missing : rc.field? k = none) : fillings rc ((k, o) :: ms) = fillings rc ms := by
  simp [fillings, missing]

theorem fillings_known (k : String) (v : Value) (ms : List (String × Option Value)) (f : Field σ)
    (found : rc.field? k = some f) : fillings rc ((k, some v) :: ms) = (k, v.sorted) :: fillings rc ms := by
  simp [fillings, found]

theorem filling_iff (k : String) (w : Value) (ms : List (String × Option Value)) :
    (k, w) ∈ fillings rc ms ↔ (rc.field? k).isSome ∧ ∃ v, (k, some v) ∈ ms ∧ w = v.sorted := by
  simp only [fillings, List.mem_filterMap, Prod.exists]
  constructor
  · rintro ⟨l, o, member, taken⟩
    split at taken
    · rename_i known
      obtain ⟨v, rfl, same⟩ := Option.map_eq_some_iff.mp taken
      cases same
      exact ⟨known, v, member, rfl⟩
    · cases taken
  · rintro ⟨known, v, member, rfl⟩
    exact ⟨k, some v, member, by rw [if_pos known]; rfl⟩

theorem fillings_count (k : String) (known : (rc.field? k).isSome) (ms : List (String × Option Value))
    (kept : ∀ m ∈ ms, (rc.field? m.1).isSome → m.2.isSome) :
    ((fillings rc ms).map Prod.fst).count k = (ms.map Prod.fst).count k := by
  induction ms with
  | nil => rfl
  | cons m ms ih =>
      obtain ⟨l, o⟩ := m
      rw [List.forall_mem_cons] at kept
      cases found : rc.field? l with
      | none =>
          have other : l ≠ k := by
            rintro rfl
            simp [found] at known
          rw [fillings_unknown rc l o ms found, ih kept.2, List.map_cons, List.count_cons_of_ne other]
      | some f =>
          obtain ⟨v, rfl⟩ := Option.isSome_iff_exists.mp (kept.1 (by simp [found]))
          rw [fillings_known rc l v ms f found, List.map_cons, List.map_cons, List.count_cons, List.count_cons,
            ih kept.2]

theorem gathers_nil (draft last : σ) : Gathers rc draft [] last ↔ last = draft := by
  refine ⟨fun gathers => (takes_nil rc draft last).mp gathers.taken, fun same => ?_⟩
  exact ⟨List.forall_mem_nil _, .nil, List.forall_mem_nil _, (takes_nil rc draft last).mpr same⟩

theorem gathers_unknown (draft last : σ) (k : String) (o : Option Value) (ms : List (String × Option Value))
    (missing : rc.field? k = none) : Gathers rc draft ((k, o) :: ms) last ↔ Gathers rc draft ms last := by
  have same := fillings_unknown rc k o ms missing
  constructor
  · rintro ⟨kept, once, vacant, taken⟩
    rw [same] at once vacant taken
    exact ⟨fun m member => kept m (List.mem_cons_of_mem _ member), once, vacant, taken⟩
  · rintro ⟨kept, once, vacant, taken⟩
    rw [← same] at once vacant taken
    refine ⟨?_, once, vacant, taken⟩
    rw [List.forall_mem_cons]
    exact ⟨fun known => by simp [missing] at known, kept⟩

variable (distinct : rc.Distinct)
include distinct

theorem gathers_known (draft last : σ) (k : String) (o : Option Value) (ms : List (String × Option Value))
    (f : Field σ) (found : rc.field? k = some f) :
    Gathers rc draft ((k, o) :: ms) last ↔ f.filled draft = false ∧
      ∃ v next, o = some v ∧ f.ofValue draft v.sorted = .ok next ∧ Gathers rc next ms last := by
  constructor
  · rintro ⟨kept, once, vacant, taken⟩
    rw [List.forall_mem_cons] at kept
    obtain ⟨v, rfl⟩ := Option.isSome_iff_exists.mp (kept.1 (by simp [found]))
    rw [fillings_known rc k v ms f found] at once vacant taken
    rw [List.map_cons, List.nodup_cons] at once
    rw [List.forall_mem_cons] at vacant
    obtain ⟨next, first, others⟩ := (takes_cons rc draft last _ _).mp taken
    refine ⟨vacant.1 f found, v, next, rfl, (take_known rc draft k _ f found).symm.trans first, ?_⟩
    refine ⟨kept.2, once.2, fun m member g known => ?_, others⟩
    have other : k ≠ m.1 := fun same => once.1 (List.mem_map.mpr ⟨m, member, same.symm⟩)
    rw [member_keeps rc distinct draft next k m.1 _ g known other first]
    exact vacant.2 m member g known
  · rintro ⟨free, v, next, rfl, value, kept, once, vacant, taken⟩
    have first := (take_known rc draft k v.sorted f found).trans value
    have other : ∀ m ∈ fillings rc ms, k ≠ m.1 := by
      rintro m member rfl
      have filled := distinct.fills f (field_named rc _ f found).1 draft next _ value
      rw [vacant m member f found] at filled
      cases filled
    refine ⟨?_, ?_, ?_, ?_⟩
    · rw [List.forall_mem_cons]
      exact ⟨fun _ => rfl, kept⟩
    · rw [fillings_known rc k v ms f found, List.map_cons, List.nodup_cons]
      refine ⟨fun inside => ?_, once⟩
      obtain ⟨m, member, same⟩ := List.mem_map.mp inside
      exact other m member same.symm
    · rw [fillings_known rc k v ms f found, List.forall_mem_cons]
      refine ⟨fun g known => ?_, fun m member g known => ?_⟩
      · cases found.symm.trans known
        exact free
      · rw [← member_keeps rc distinct draft next k m.1 _ g known (other m member) first]
        exact vacant m member g known
    · rw [fillings_known rc k v ms f found]
      exact (takes_cons rc draft last _ _).mpr ⟨next, first, taken⟩

variable (d : Nat) (sighted : rc.Sighted d)
include sighted

omit distinct in
theorem member_sighted (draft next : σ) (k : String) (s r : List Char) :
    (rc.readMember draft k).run s = .ok (next, r) ↔ ∃ o, (afterColon (glimpse d)).run s = .ok (o, r) ∧
      ((rc.field? k = none ∧ next = draft) ∨ ∃ f v, rc.field? k = some f ∧ f.filled draft = false ∧
        o = some v ∧ f.ofValue draft v.sorted = .ok next) := by
  cases known : rc.field? k with
  | none =>
      rw [member_unknown rc draft next k s r known]
      simp only [after_colon]
      constructor
      · rintro ⟨same, text, colon, passed⟩
        obtain ⟨o, seen⟩ := (glimpse_skipped d text r).mpr passed
        exact ⟨o, ⟨text, colon, seen⟩, .inl ⟨trivial, same⟩⟩
      · rintro ⟨o, ⟨text, colon, seen⟩, ⟨_, same⟩ | ⟨_, _, found, _⟩⟩
        · exact ⟨same, text, colon, (glimpse_skipped d text r).mp ⟨o, seen⟩⟩
        · cases found
  | some f =>
      have field := sighted f (field_named rc k f known).1 draft
      rw [member_known rc draft next k s r f known]
      simp only [after_colon, reduceCtorEq, false_and, false_or, Option.some.injEq]
      constructor
      · rintro ⟨free, text, colon, read⟩
        obtain ⟨v, written, taken⟩ := (field text r next).mp read
        exact ⟨some v, ⟨text, colon, (glimpse_some d text r v).mpr written⟩, f, v, rfl, free, rfl, taken⟩
      · rintro ⟨_, ⟨text, colon, seen⟩, _, v, rfl, free, rfl, taken⟩
        have written := (glimpse_some d text r v).mp seen
        exact ⟨free, text, colon, (field text r next).mpr ⟨v, written, taken⟩⟩

theorem members_sighted (draft last : σ) (first : Bool) (s r : List Char) :
    members kept rc.readMember draft first s = .ok (last, r) ↔
      ∃ ms, Entries (glimpse d) first s ms r ∧ Gathers rc draft ms last := by
  constructor
  · intro read
    fun_induction members kept rc.readMember draft first s with
    | case1 => cases read
    | case2 draft first s rest next =>
        cases read
        exact ⟨[], .closed first s r next, (gathers_nil rc last last).mpr rfl⟩
    | case3 => cases read
    | case4 draft first s k text more next rest taken _ _ ih =>
        obtain ⟨ms, entries, gathers⟩ := ih read
        obtain ⟨o, seen, how⟩ := (member_sighted rc d sighted draft next k text rest).mp taken
        refine ⟨(k, o) :: ms, .entry first s text rest r k o ms more seen entries, ?_⟩
        obtain ⟨missing, rfl⟩ | ⟨f, v, found, free, rfl, value⟩ := how
        · exact (gathers_unknown rc next last k o ms missing).mpr gathers
        · exact (gathers_known rc distinct draft last k _ ms f found).mpr ⟨free, v, next, rfl, value, gathers⟩
  · rintro ⟨ms, entries, gathers⟩
    induction entries generalizing draft with
    | closed first s r next =>
        rw [(gathers_nil rc draft last).mp gathers]
        exact members_closed kept _ draft first s r next
    | entry first s text rest r k o ms more seen _ ih =>
        have member := member_sighted rc d sighted draft
        cases known : rc.field? k with
        | none =>
            have read := (member draft k text rest).mpr ⟨o, seen, .inl ⟨known, rfl⟩⟩
            have others := (gathers_unknown rc draft last k o ms known).mp gathers
            exact members_step _ draft draft last first k s text rest r more read (ih draft others)
        | some f =>
            obtain ⟨free, v, next, rfl, value, others⟩ :=
              (gathers_known rc distinct draft last k o ms f known).mp gathers
            have read := (member next k text rest).mpr ⟨_, seen, .inr ⟨f, v, known, free, rfl, value⟩⟩
            exact members_step _ draft next last first k s text rest r more read (ih next others)

end

theorem order_sighted {σ : Type} (d : Nat) (fs : List (Field σ))
    (sighted : ∀ f ∈ fs, ∀ draft, Sighted d (f.read draft) (f.ofValue draft)) (draft last : σ) (first : Bool)
    (s r : List Char) :
    Record.readInOrder fs draft first s = .ok (last, r) ↔ ∃ vs, Items kept (asWritten d) first s vs r ∧
      vs.length ≤ fs.length ∧ Record.takeInOrder fs draft (vs.map Value.sorted) = .ok last := by
  induction fs generalizing draft first s with
  | nil =>
      simp only [Record.readInOrder, mapped_ok, list_ended, Prod.mk.injEq, List.length_nil, Nat.le_zero_eq,
        List.length_eq_zero_iff]
      constructor
      · rintro ⟨rest, bracket, rfl, rfl⟩
        exact ⟨[], .closed first s rest ((element_ended first s rest).mpr bracket), rfl, rfl⟩
      · rintro ⟨vs, items, rfl, taken⟩
        cases taken
        cases items with
        | closed _ _ _ next => exact ⟨r, (element_ended first s r).mp next, rfl, rfl⟩
  | cons f fs ih =>
      rw [Record.readInOrder]
      constructor
      · intro read
        split at read
        · cases read
        · rename_i next
          cases read
          exact ⟨[], .closed first s r next, Nat.zero_le _, rfl⟩
        · rename_i text next
          split at read
          · cases read
          · rename_i filled rest taken
            obtain ⟨v, written, here⟩ := (sighted f (by simp) draft text rest filled).mp taken
            obtain ⟨vs, later, short, others⟩ := (ih (fun g member => sighted g (by simp [member])) _ _ _).mp read
            refine ⟨v :: vs, .item first s text rest r v vs next written later, Nat.succ_le_succ short, ?_⟩
            rw [List.map_cons, Record.takeInOrder, here]
            exact others
      · rintro ⟨vs, items, short, taken⟩
        cases items with
        | closed _ _ _ next =>
            cases taken
            rw [next]
        | item _ _ text rest _ v vs next written later =>
            rw [List.map_cons, Record.takeInOrder, bound_ok] at taken
            obtain ⟨filled, here, others⟩ := taken
            have read := (sighted f (by simp) draft text rest filled).mpr ⟨v, written, here⟩
            have later := (ih (fun g member => sighted g (by simp [member])) filled false rest).mpr
              ⟨vs, later, Nat.le_of_succ_le_succ short, others⟩
            rw [next]
            simp only [read]
            exact later

-- The names and values in which a record looks for its fields: the members of an object, or the elements of
-- a list under the names of the fields in their order.
inductive Outlined (names : List String) (d : Nat) :
    List Char → List (String × Option Value) → List Char → Prop where
  | object (s inside r : List Char) (ms : List (String × Option Value)) (opened : skipSpace s = '{' :: inside)
      (entries : Entries (glimpse d) true inside ms r) : Outlined names d s ms r
  | list (s inside r : List Char) (vs : List Value) (opened : skipSpace s = '[' :: inside)
      (items : Items kept (asWritten d) true inside vs r) (short : vs.length ≤ names.length) :
      Outlined names d s (names.zip (vs.map some)) r

section

variable {σ α : Type} (rc : Record σ α)

theorem fillings_zip (names : List String) (known : ∀ k ∈ names, (rc.field? k).isSome) (vs : List Value) :
    fillings rc (names.zip (vs.map some)) = names.zip (vs.map Value.sorted) := by
  induction names generalizing vs with
  | nil => rfl
  | cons k names ih =>
      cases vs with
      | nil => rfl
      | cons v vs =>
          obtain ⟨f, found⟩ := Option.isSome_iff_exists.mp (known k (by simp))
          simp only [List.map_cons, List.zip_cons_cons, fillings_known rc k v _ f found,
            ih (fun l member => known l (by simp [member])) vs]

variable (distinct : rc.Distinct)
include distinct

theorem names_apart : (rc.fields.map (·.name)).Nodup :=
  List.pairwise_map.mpr (distinct.apart.imp fun apart => apart.names)

theorem listed_gathers (draft : σ) (vs : List Value) :
    Gathers rc rc.blank ((rc.fields.map (·.name)).zip (vs.map some)) draft ↔
      Record.takeInOrder rc.fields rc.blank (vs.map Value.sorted) = .ok draft := by
  have known : ∀ k ∈ rc.fields.map (·.name), (rc.field? k).isSome := by
    intro k member
    obtain ⟨f, inside, rfl⟩ := List.mem_map.mp member
    simp [field_found rc distinct f inside]
  have listed := fillings_zip rc _ known vs
  rw [order_members rc rc.fields (field_found rc distinct), ← listed]
  refine ⟨fun gathers => gathers.taken, fun taken => ⟨?_, ?_, ?_, taken⟩⟩
  · intro m member _
    obtain ⟨v, _, same⟩ := List.mem_map.mp (List.of_mem_zip member).2
    rw [← same]
    rfl
  · rw [listed]
    exact (names_apart rc distinct).sublist (zip_names _ _)
  · intro _ _ f found
    exact distinct.vacant f (field_named rc _ f found).1

theorem record_outlined (d : Nat) (sighted : rc.Sighted d) (s r : List Char) (a : α) :
    rc.form.read.run s = .ok (a, r) ↔ ∃ ms, Outlined (rc.fields.map (·.name)) d s ms r ∧
      ∃ draft, Gathers rc rc.blank ms draft ∧ rc.complete draft = .ok a := by
  obtain ⟨text, opened⟩ | ⟨text, opened⟩ | plain := bracket_cases s
  · have read : rc.form.read.run s =
        rc.completeAfter rc.shortList (Record.readInOrder rc.fields rc.blank true text) :=
      bracketed_list _ _ _ s text opened
    simp only [read, complete_ok, order_sighted d rc.fields sighted, ← listed_gathers rc distinct]
    constructor
    · rintro ⟨draft, ⟨vs, items, short, gathers⟩, whole⟩
      exact ⟨_, .list s text r vs opened items (by simpa using short), draft, gathers, whole⟩
    · rintro ⟨ms, outlined, draft, gathers, whole⟩
      cases outlined with
      | object _ _ _ other => cases opened.symm.trans other
      | list _ _ vs same items short =>
          cases opened.symm.trans same
          exact ⟨draft, ⟨vs, items, by simpa using short, gathers⟩, whole⟩
  · have read : rc.form.read.run s =
        rc.completeAfter .missing (members kept rc.readMember rc.blank true text) :=
      bracketed_object _ _ _ s text opened
    simp only [read, complete_ok, members_sighted rc distinct d sighted]
    constructor
    · rintro ⟨draft, ⟨ms, entries, gathers⟩, whole⟩
      exact ⟨ms, .object s text r ms opened entries, draft, gathers, whole⟩
    · rintro ⟨ms, outlined, draft, gathers, whole⟩
      cases outlined with
      | object _ _ _ same entries =>
          cases opened.symm.trans same
          exact ⟨draft, ⟨ms, entries, gathers⟩, whole⟩
      | list _ _ _ other => cases opened.symm.trans other
  · constructor
    · intro read
      change bracketed _ _ _ s = _ at read
      rw [bracketed_plain _ _ _ s plain] at read
      split at read
      · cases read
      · cases read
    · rintro ⟨ms, outlined, _⟩
      cases outlined with
      | object inside _ _ opened => exact absurd opened (plain inside).2
      | list inside _ _ opened => exact absurd opened (plain inside).1

end

end DarkDrop.Json
