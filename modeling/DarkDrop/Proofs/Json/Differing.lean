import DarkDrop.Proofs.Json.Blind
import Mathlib.Data.List.Nodup

namespace DarkDrop.Json

def entry {ν α : Type} (name : ν) (a : Option α) : List (ν × α) := a.toList.map fun x => (name, x)

inductive Differ {α : Type} (k : String) (x y : Option α) : List (String × α) → List (String × α) → Prop where
  | intro (before after : List (String × α)) (last : k ∉ after.map Prod.fst)
      (only : x = none ∨ y = none → k ∉ before.map Prod.fst) :
      Differ k x y (before ++ entry k x ++ after) (before ++ entry k y ++ after)

section

variable {α : Type}

theorem lookup_absent (k : String) (es : List (String × α)) (absent : k ∉ es.map Prod.fst) : es.lookup k = none := by
  rw [List.lookup_eq_none_iff]
  intro m member
  have other : k ≠ m.1 := fun same => absent (same.symm ▸ List.mem_map_of_mem member)
  exact bne_iff_ne.mpr other

theorem lookup_later (l : String) (m : String × α) (es : List (String × α)) (other : l ≠ m.1) :
    (m :: es).lookup l = es.lookup l := by
  rw [List.lookup_cons, beq_false_of_ne other]

theorem lookup_here (k : String) (x : Option α) : (entry k x).lookup k = x := by
  cases x <;> simp [entry]

theorem lookup_other (k l : String) (x : Option α) (other : l ≠ k) : (entry k x).lookup l = none := by
  cases x <;> simp [entry, other]

theorem differ_turned (k : String) (x y : Option α) (es us : List (String × α)) (differ : Differ k x y es us) :
    Differ k y x us es := by
  cases differ with
  | intro before after last only => exact .intro before after last fun absent => only absent.symm

section

variable (k : String) (x y : Option α) (es us : List (String × α)) (differ : Differ k x y es us)
include differ

theorem differ_other (l : String) (other : l ≠ k) : es.reverse.lookup l = us.reverse.lookup l := by
  have reversed (x : Option α) : (entry k x).reverse = entry k x := by cases x <;> rfl
  cases differ with
  | intro before after last only =>
      simp only [List.reverse_append, List.lookup_append, reversed, lookup_other k l _ other]

theorem differ_here : es.reverse.lookup k = x := by
  have reversed (x : Option α) : (entry k x).reverse = entry k x := by cases x <;> rfl
  cases differ with
  | intro before after last only =>
      have none : after.reverse.lookup k = none := lookup_absent k _ (by simpa using last)
      simp only [List.reverse_append, List.lookup_append, reversed, lookup_here, none, Option.none_or]
      cases x with
      | some x => rfl
      | none =>
          rw [Option.none_or]
          exact lookup_absent k _ (by simpa using only (.inl rfl))

end

theorem lookup_reversed (es : List (String × α)) (once : (es.map Prod.fst).Nodup) (l : String) :
    es.reverse.lookup l = es.lookup l := by
  induction es with
  | nil => rfl
  | cons m es ih =>
      rw [List.map_cons, List.nodup_cons] at once
      rw [List.reverse_cons, List.lookup_append, ih once.2]
      by_cases same : l = m.1
      · subst same
        rw [lookup_absent m.1 es once.1, List.lookup_cons_self, List.lookup_cons_self, Option.none_or]
      · rw [lookup_later l m es same, lookup_later l m [] same, List.lookup_nil, Option.or_none]

theorem member_lookup (es : List (String × α)) (l : String) (once : (es.map Prod.fst).count l ≤ 1) (a : α) :
    (l, a) ∈ es ↔ es.lookup l = some a := by
  induction es with
  | nil => simp
  | cons n es ih =>
      obtain ⟨name, b⟩ := n
      rw [List.map_cons, List.count_cons] at once
      by_cases same : l = name
      · subst same
        have absent : l ∉ es.map Prod.fst := by
          rw [← List.count_eq_zero]
          simp at once
          omega
        have later : (l, a) ∉ es := fun member => absent (List.mem_map_of_mem member)
        simp [later, eq_comm]
      · rw [lookup_later l (name, b) es same, ← ih (by omega)]
        simp [same]

theorem lookup_perm (es us : List (String × α)) (once : (es.map Prod.fst).Nodup) (once' : (us.map Prod.fst).Nodup)
    (same : ∀ l, es.lookup l = us.lookup l) : es.Perm us := by
  rw [List.perm_ext_iff_of_nodup (List.Nodup.of_map Prod.fst once) (List.Nodup.of_map Prod.fst once')]
  intro m
  rw [member_lookup es m.1 (List.nodup_iff_count_le_one.mp once m.1),
    member_lookup us m.1 (List.nodup_iff_count_le_one.mp once' m.1), same]

def others (k : String) (es : List (String × α)) : List (String × α) := es.filter (·.1 ≠ k)

theorem others_lack (k : String) (es : List (String × α)) : k ∉ (others k es).map Prod.fst := by
  simp [others]

theorem others_once (k : String) (es : List (String × α)) (once : (es.map Prod.fst).Nodup) :
    ((others k es).map Prod.fst).Nodup := once.sublist (List.filter_sublist.map Prod.fst)

theorem others_lookup (k l : String) (es : List (String × α)) :
    (others k es).lookup l = if l = k then none else es.lookup l := by
  by_cases same : l = k
  · rw [if_pos same, same, lookup_absent k _ (others_lack k es)]
  · rw [if_neg same]
    induction es with
    | nil => rfl
    | cons m es ih =>
        by_cases gone : m.1 = k
        · have dropped : others k (m :: es) = others k es := by simp [others, gone]
          rw [dropped, ih, lookup_later l m es fun here => same (here.trans gone)]
        · have kept : others k (m :: es) = m :: others k es := by simp [others, gone]
          rw [kept]
          by_cases here : l = m.1
          · rw [here, List.lookup_cons_self, List.lookup_cons_self]
          · rw [lookup_later l m _ here, lookup_later l m _ here, ih]

theorem apart_perm (k : String) (es : List (String × α)) (once : (es.map Prod.fst).Nodup) :
    es.Perm (entry k (es.lookup k) ++ others k es) := by
  have lacks := others_lack k es
  have apart : ((entry k (es.lookup k) ++ others k es).map Prod.fst).Nodup := by
    cases es.lookup k with
    | none => exact others_once k es once
    | some a => exact List.nodup_cons.mpr ⟨lacks, others_once k es once⟩
  apply lookup_perm es _ once apart
  intro l
  rw [List.lookup_append, others_lookup]
  by_cases same : l = k
  · rw [if_pos same, same, lookup_here, Option.or_none]
  · rw [if_neg same, lookup_other k l _ same, Option.none_or]

end

theorem set_lookup (k l : String) (v : Value) (ms : List (String × Value)) :
    (setMember k v ms).lookup l = if l = k then some v else ms.lookup l := by
  induction ms with
  | nil =>
      by_cases same : l = k
      · rw [if_pos same, same, setMember, List.lookup_cons_self]
      · rw [if_neg same, setMember, lookup_later l _ _ same]
  | cons m ms ih =>
      obtain ⟨n, w⟩ := m
      rw [setMember]
      by_cases same : l = k
      · rw [if_pos same] at ih ⊢
        subst same
        split_ifs with found before
        · exact List.lookup_cons_self
        · exact List.lookup_cons_self
        · rw [lookup_later l _ _ found, ih]
      · rw [if_neg same] at ih ⊢
        split_ifs with found before
        · subst found
          rw [lookup_later l _ _ same, lookup_later l _ _ same]
        · rw [lookup_later l _ _ same]
        · by_cases here : l = n
          · rw [here, List.lookup_cons_self, List.lookup_cons_self]
          · rw [lookup_later l _ _ here, lookup_later l _ _ here, ih]

theorem set_all_lookup (l : String) (ms acc : List (String × Value)) :
    (setAll ms acc).lookup l = (ms.reverse.lookup l).or (acc.lookup l) := by
  induction ms generalizing acc with
  | nil => rfl
  | cons m ms ih =>
      change (setAll ms (setMember m.1 m.2 acc)).lookup l = _
      rw [ih, set_lookup, List.reverse_cons, List.lookup_append, Option.or_assoc]
      by_cases same : l = m.1
      · rw [if_pos same, same, List.lookup_cons_self, Option.some_or]
      · rw [if_neg same, lookup_later l m [] same, List.lookup_nil, Option.none_or]

theorem sorted_values_lookup (l : String) (es : List (String × Value)) :
    (sortedValues es).lookup l = (es.lookup l).map Value.sorted := by
  induction es with
  | nil => rfl
  | cons m es ih =>
      change ((m.1, m.2.sorted) :: sortedValues es).lookup l = _
      by_cases same : l = m.1
      · rw [same, List.lookup_cons_self, List.lookup_cons_self, Option.map_some]
      · rw [lookup_later l (m.1, m.2.sorted) _ same, lookup_later l m _ same, ih]

theorem sorted_lookup (names : List String) (distinct : names.Nodup) (v : Value) (es : List (String × Value))
    (found : v.members? names = some es) :
    ∃ us, v.sorted.members? names = some us ∧ ∀ l, us.lookup l = (es.reverse.lookup l).map Value.sorted := by
  cases v with
  | scalar => cases found
  | object ms =>
      cases found
      refine ⟨setAll (sortedValues es) [], by rw [Value.sorted, sorted_members]; rfl, fun l => ?_⟩
      have reversed : (sortedValues es).reverse = sortedValues es.reverse := List.map_reverse.symm
      rw [set_all_lookup, reversed, sorted_values_lookup, List.lookup_nil, Option.or_none]
  | list vs =>
      rw [Value.members?] at found
      split at found
      · rename_i short
        cases found
        refine ⟨names.zip (vs.map Value.sorted), ?_, fun l => ?_⟩
        · rw [Value.sorted, sorted_list, Value.members?, List.length_map, if_pos short]
        · have sorted : names.zip (vs.map Value.sorted) = sortedValues (names.zip vs) := List.zip_map_right ..
          rw [sorted, sorted_values_lookup, lookup_reversed _ (distinct.sublist (zip_names names vs))]
      · cases found

section

variable {σ α β : Type} (rc : Record σ α) (distinct : rc.Distinct)
include distinct

theorem takes_apart (us : List (String × Value)) (once : (us.map Prod.fst).Nodup) (k : String) (f : Field σ)
    (found : rc.field? k = some f) (last : σ) :
    Takes rc rc.blank us last ↔ ∃ base, Takes rc rc.blank (others k us) base ∧ f.filled base = false ∧
      (us.lookup k).elim (last = base) fun v => f.ofValue base v = .ok last := by
  have known : (knownNames rc us).Nodup := once.filter _
  have lacks := others_lack k us
  have vacant (base : σ) (taken : Takes rc rc.blank (others k us) base) : f.filled base = false := by
    have filled := takes_filled rc distinct rc.blank base k f _ found taken
    rw [distinct.vacant f (field_named rc k f found).1] at filled
    simpa [lacks] using filled
  rw [takes_perm rc distinct _ last us _ (apart_perm k us once) known]
  cases us.lookup k with
  | none =>
      constructor
      · exact fun taken => ⟨last, taken, vacant last taken, rfl⟩
      · rintro ⟨base, taken, _, rfl⟩
        exact taken
  | some v =>
      change Takes rc rc.blank ((k, v) :: others k us) last ↔ _
      rw [takes_last rc distinct rc.blank last k v _ lacks]
      simp only [take_known rc _ k v f found]
      constructor
      · rintro ⟨base, taken, filled⟩
        exact ⟨base, taken, vacant base taken, filled⟩
      · rintro ⟨base, taken, _, filled⟩
        exact ⟨base, taken, filled⟩

end

def Yields {β : Type} (form : Form β) (x : Option Value) (b : Option β) : Prop :=
  Option.Rel (fun v b => form.ofValue v.sorted = .ok b) x b

theorem sorted_apart (names : List String) (distinct : names.Nodup) (k : String) (v w : Value)
    (es fs : List (String × Value)) (here : v.members? names = some es) (there : w.members? names = some fs)
    (x y : Option Value) (differ : Differ k x y es fs) :
    ∃ us us', v.sorted.members? names = some us ∧ w.sorted.members? names = some us' ∧
      us.lookup k = x.map Value.sorted ∧ us'.lookup k = y.map Value.sorted ∧ (others k us).Perm (others k us') := by
  obtain ⟨us, kept, lookups⟩ := sorted_lookup names distinct v es here
  obtain ⟨us', kept', lookups'⟩ := sorted_lookup names distinct w fs there
  have once := sorted_once names distinct v us kept
  have once' := sorted_once names distinct w us' kept'
  refine ⟨us, us', kept, kept', ?_, ?_, ?_⟩
  · rw [lookups, differ_here k x y es fs differ]
  · rw [lookups', differ_here k y x fs es (differ_turned k x y es fs differ)]
  · apply lookup_perm _ _ (others_once k us once) (others_once k us' once')
    intro l
    rw [others_lookup, others_lookup, lookups, lookups']
    by_cases same : l = k
    · rw [if_pos same, if_pos same]
    · rw [if_neg same, if_neg same, differ_other k x y es fs differ l same]

theorem record_apart {σ α β : Type} (rc : Record σ α) (distinct : rc.Distinct) (k : String) (get : σ → Option β)
    (set : σ → β → σ) (form : Form β) (found : rc.field? k = some (Field.of k get set form)) (v w : Value)
    (es fs : List (String × Value)) (here : v.members? (rc.fields.map (·.name)) = some es)
    (there : w.members? (rc.fields.map (·.name)) = some fs) (x y : Option Value) (differ : Differ k x y es fs) (p : α)
    (taken : rc.form.ofValue v.sorted = .ok p) :
    ∃ base a, get base = none ∧ Yields form x a ∧ rc.complete (a.elim base (set base)) = .ok p ∧
      ∀ b q, Yields form y b → rc.complete (b.elim base (set base)) = .ok q → rc.form.ofValue w.sorted = .ok q := by
  have names := names_apart rc distinct
  obtain ⟨us, us', kept, kept', given, given', alike⟩ := sorted_apart _ names k v w es fs here there x y differ
  have once := sorted_once _ names v us kept
  have once' := sorted_once _ names w us' kept'
  obtain ⟨ms, listed, last, all, whole⟩ := (record_members rc distinct v.sorted p).mp taken
  cases kept.symm.trans listed
  obtain ⟨base, before, vacant, filled⟩ := (takes_apart rc distinct us once k _ found last).mp all
  have known : (knownNames rc (others k us)).Nodup := (others_once k us once).filter _
  have before' := (takes_perm rc distinct rc.blank base _ _ alike known).mp before
  have fill (b : Option β) (q : α) (fills : Yields form y b) (ended : rc.complete (b.elim base (set base)) = .ok q) :
      rc.form.ofValue w.sorted = .ok q := by
    apply (record_members rc distinct w.sorted q).mpr
    refine ⟨us', kept', b.elim base (set base), ?_, ended⟩
    apply (takes_apart rc distinct us' once' k _ found _).mpr
    refine ⟨base, before', vacant, ?_⟩
    rw [given']
    cases fills with
    | none => rfl
    | some read => exact (mapped_ok _ (set base) _).mpr ⟨_, read, rfl⟩
  have open' : get base = none := by simpa [Field.of] using vacant
  rw [given] at filled
  cases x with
  | none =>
      cases filled
      exact ⟨last, none, open', .none, whole, fill⟩
  | some x =>
      obtain ⟨a, read, same⟩ := map_eq_ok (show (form.ofValue x.sorted).map (set base) = .ok last from filled)
      subst same
      exact ⟨base, some a, open', .some read, whole, fill⟩

namespace Tree

-- Trees that are the same but for one member: in an object the last of its name, in a list the one in its place,
-- which is the last of all.
inductive Differs (names : List String) (k : String) (a b : Option Tree) : Tree → Tree → Prop where
  | object (name : List Char) (named : name? name = some k) (body : Body name) (before after : List (List Char × Tree))
      (last : ∀ m ∈ after, name? m.1 ≠ some k) (only : a = none ∨ b = none → ∀ m ∈ before, name? m.1 ≠ some k) :
      Differs names k a b (.object (before ++ entry name a ++ after)) (.object (before ++ entry name b ++ after))
  | list (ts : List Tree) (place : names[ts.length]? = some k) :
      Differs names k a b (.list (ts ++ a.toList)) (.list (ts ++ b.toList))

theorem differs_turned (names : List String) (k : String) (a b : Option Tree) (t u : Tree)
    (differs : Differs names k a b t u) : Differs names k b a u t := by
  cases differs with
  | object name named body before after last only =>
      exact .object name named body before after last fun absent => only absent.symm
  | list ts place => exact .list ts place

theorem entry_all {ν α : Type} (name : ν) (a : Option α) (p : ν × α → Prop) :
    (∀ m ∈ entry name a, p m) ↔ ∀ x ∈ a, p (name, x) := by
  cases a <;> simp [entry]

theorem differs_valid (names : List String) (k : String) (a b : Option Tree) (t u : Tree)
    (differs : Differs names k a b t u) (valid : t.Valid) (other : ∀ x ∈ b, x.Valid) : u.Valid := by
  cases differs with
  | object name named body before after last only =>
      cases valid with
      | object _ bodies each =>
          simp only [List.forall_mem_append] at bodies each
          apply Valid.object
          · simp only [List.forall_mem_append, entry_all]
            exact ⟨⟨bodies.1.1, fun _ _ => body⟩, bodies.2⟩
          · simp only [List.forall_mem_append, entry_all]
            exact ⟨⟨each.1.1, other⟩, each.2⟩
  | list ts place =>
      cases valid with
      | list _ each =>
          apply Valid.list
          simp only [List.forall_mem_append, Option.mem_toList] at each ⊢
          exact ⟨each.1, other⟩

theorem differs_part (names : List String) (k : String) (a b : Option Tree) (t u : Tree)
    (differs : Differs names k a b t u) (valid : t.Valid) : ∀ x ∈ a, x.Valid := by
  cases differs with
  | object name named body before after last only =>
      cases valid with
      | object _ bodies each =>
          simp only [List.forall_mem_append, entry_all] at each
          exact each.1.2
  | list ts place =>
      cases valid with
      | list _ each =>
          simp only [List.forall_mem_append, Option.mem_toList] at each
          exact each.2

section

variable {α : Type} (f : Tree → Option α)

def Sees (a : Option Tree) (x : Option α) : Prop := Option.Rel (fun t v => f t = some v) a x

theorem mapped_append {β : Type} (g : β → Option α) (bs cs : List β) (as : List α) :
    (bs ++ cs).mapM g = some as ↔ ∃ before after, bs.mapM g = some before ∧ cs.mapM g = some after ∧
      as = before ++ after := by
  simp only [List.mapM_append, bind, Option.bind_eq_some_iff, pure, Option.some.injEq]
  constructor
  · rintro ⟨before, here, after, there, rfl⟩
    exact ⟨before, after, here, there, rfl⟩
  · rintro ⟨before, after, here, there, rfl⟩
    exact ⟨before, here, after, there, rfl⟩

theorem places_mapped (a : Option Tree) (vs : List α) :
    a.toList.mapM f = some vs ↔ ∃ x, Sees f a x ∧ vs = x.toList := by
  cases a with
  | none =>
      constructor
      · intro none
        cases none
        exact ⟨none, .none, rfl⟩
      · rintro ⟨x, sees, rfl⟩
        cases sees
        rfl
  | some t =>
      have read : (some t).toList.mapM f = (f t).map fun v => [v] := by
        simp only [Option.toList_some, List.mapM_cons, List.mapM_nil]
        cases f t <;> rfl
      rw [read, Option.map_eq_some_iff]
      constructor
      · rintro ⟨v, seen, rfl⟩
        exact ⟨some v, .some seen, rfl⟩
      · rintro ⟨x, sees, rfl⟩
        cases sees with
        | some seen => exact ⟨_, seen, rfl⟩

theorem entry_mapped (name : List Char) (k : String) (named : name? name = some k) (a : Option Tree)
    (es : List (String × α)) : (entry name a).mapM (pair? f) = some es ↔ ∃ x, Sees f a x ∧ es = entry k x := by
  have read : (entry name a).mapM (pair? f) = (a.toList.mapM f).map fun vs => vs.map fun v => (k, v) := by
    cases a with
    | none => rfl
    | some t =>
        simp only [entry, Option.toList_some, List.map_cons, List.map_nil, List.mapM_cons, List.mapM_nil, pair?, named]
        cases f t <;> rfl
  simp only [read, Option.map_eq_some_iff, places_mapped]
  constructor
  · rintro ⟨_, ⟨x, sees, rfl⟩, rfl⟩
    exact ⟨x, sees, rfl⟩
  · rintro ⟨x, sees, rfl⟩
    exact ⟨_, ⟨x, sees, rfl⟩, rfl⟩

theorem mapped_names (ms : List (List Char × Tree)) (es : List (String × α)) (mapped : ms.mapM (pair? f) = some es)
    (k : String) (absent : ∀ m ∈ ms, name? m.1 ≠ some k) : k ∉ es.map Prod.fst := by
  rw [entry_names f ms es mapped, List.mem_filterMap]
  rintro ⟨m, member, named⟩
  exact absent m member named

theorem sees_none (a : Option Tree) (x : Option α) (sees : Sees f a x) : x = none ↔ a = none := by
  cases sees <;> simp

theorem mapped_length (ts : List Tree) (vs : List α) (seen : ts.mapM f = some vs) : vs.length = ts.length := by
  induction ts generalizing vs with
  | nil =>
      cases seen
      rfl
  | cons t ts ih =>
      rw [List.mapM_cons] at seen
      obtain ⟨_, _, seen⟩ := Option.bind_eq_some_iff.mp seen
      obtain ⟨later, others, same⟩ := Option.bind_eq_some_iff.mp seen
      cases same
      rw [List.length_cons, List.length_cons, ih later others]

variable (names : List String) (k : String) (a b : Option Tree)

theorem object_differ (name : List Char) (named : name? name = some k) (before after : List (List Char × Tree))
    (last : ∀ m ∈ after, name? m.1 ≠ some k) (only : a = none ∨ b = none → ∀ m ∈ before, name? m.1 ≠ some k)
    (es : List (String × α)) (seen : (before ++ entry name a ++ after).mapM (pair? f) = some es) :
    ∃ x, Sees f a x ∧ ∀ y, Sees f b y →
      ∃ us, (before ++ entry name b ++ after).mapM (pair? f) = some us ∧ Differ k x y es us := by
  obtain ⟨_, behind, front, there, rfl⟩ := (mapped_append _ _ _ es).mp seen
  obtain ⟨ahead, _, here, held, rfl⟩ := (mapped_append _ _ _ _).mp front
  obtain ⟨x, sees, rfl⟩ := (entry_mapped f name k named a _).mp held
  refine ⟨x, sees, fun y sees' => ⟨ahead ++ entry k y ++ behind, ?_, ?_⟩⟩
  · have put := (entry_mapped f name k named b _).mpr ⟨y, sees', rfl⟩
    exact (mapped_append _ _ _ _).mpr ⟨_, behind, (mapped_append _ _ _ _).mpr ⟨ahead, _, here, put, rfl⟩, there, rfl⟩
  · apply Differ.intro ahead behind (mapped_names f _ _ there k last)
    intro absent
    rw [sees_none f a x sees, sees_none f b y sees'] at absent
    exact mapped_names f _ _ here k (only absent)

theorem list_differ (distinct : names.Nodup) (ts : List Tree) (place : names[ts.length]? = some k) (vs : List α)
    (seen : (ts ++ a.toList).mapM f = some vs) :
    vs.length ≤ names.length ∧ ∃ x, Sees f a x ∧ ∀ y, Sees f b y →
      ∃ ws, (ts ++ b.toList).mapM f = some ws ∧ ws.length ≤ names.length ∧
        Differ k x y (names.zip vs) (names.zip ws) := by
  obtain ⟨ahead, _, here, held, rfl⟩ := (mapped_append f ts a.toList vs).mp seen
  obtain ⟨x, sees, rfl⟩ := (places_mapped f a _).mp held
  have long := mapped_length f ts ahead here
  obtain ⟨front, back, rfl, counted⟩ : ∃ front back, names = front ++ k :: back ∧ front.length = ts.length := by
    obtain ⟨inside, reached⟩ := List.getElem?_eq_some_iff.mp place
    refine ⟨names.take ts.length, names.drop (ts.length + 1), ?_, List.length_take_of_le (Nat.le_of_lt inside)⟩
    rw [← reached, List.getElem_cons_drop, List.take_append_drop]
  have placed (z : Option α) : (front ++ k :: back).zip (ahead ++ z.toList) = front.zip ahead ++ entry k z ++ [] := by
    rw [List.zip_append (counted.trans long.symm)]
    cases z <;> simp [entry]
  have room (z : Option α) : (ahead ++ z.toList).length ≤ (front ++ k :: back).length := by
    rw [List.length_append, List.length_append, long, counted]
    cases z <;> simp
  have fresh : k ∉ (front.zip ahead).map Prod.fst := by
    intro listed
    obtain ⟨m, member, same⟩ := List.mem_map.mp listed
    have first := (List.of_mem_zip member).1
    rw [same] at first
    exact (List.nodup_append.mp distinct).2.2 k first k List.mem_cons_self rfl
  refine ⟨room x, x, sees, fun y sees' => ⟨ahead ++ y.toList, ?_, room y, ?_⟩⟩
  · exact (mapped_append f ts b.toList _).mpr ⟨ahead, _, here, (places_mapped f b _).mpr ⟨y, sees', rfl⟩, rfl⟩
  · rw [placed, placed]
    exact .intro _ [] List.not_mem_nil fun _ => fresh

end

def outline? {α : Type} (names : List String) (f : Tree → Option α) : Tree → Option (List (String × α))
  | .leaf _ => none
  | .list ts => if ts.length ≤ names.length then (ts.mapM f).map names.zip else none
  | .object ms => ms.mapM (pair? f)

section

variable (names : List String) (distinct : names.Nodup) (k : String) (a b : Option Tree) (t u : Tree)
  (differs : Differs names k a b t u)
include distinct differs

theorem outline_differ {α : Type} (f : Tree → Option α) (es : List (String × α)) (seen : t.outline? names f = some es) :
    ∃ x, Sees f a x ∧ ∀ y, Sees f b y → ∃ us, u.outline? names f = some us ∧ Differ k x y es us := by
  cases differs with
  | object name named body before after last only =>
      exact object_differ f k a b name named before after last only es seen
  | list ts place =>
      rw [outline?] at seen
      split at seen
      · obtain ⟨vs, read, rfl⟩ := Option.map_eq_some_iff.mp seen
        obtain ⟨_, x, sees, other⟩ := list_differ f names k a b distinct ts place vs read
        refine ⟨x, sees, fun y sees' => ?_⟩
        obtain ⟨ws, read', room, differ⟩ := other y sees'
        rw [mapped_length f _ ws read'] at room
        exact ⟨_, by rw [outline?, if_pos room, read']; rfl, differ⟩
      · cases seen

theorem value_differ (d : Nat) (v : Value) (seen : t.value? (d + 1) = some v) :
    v ≠ .scalar .null ∧ ∃ x es, Sees (value? d) a x ∧ v.members? names = some es ∧ ∀ y, Sees (value? d) b y →
      ∃ w us, u.value? (d + 1) = some w ∧ w ≠ .scalar .null ∧ w.members? names = some us ∧ Differ k x y es us := by
  cases differs with
  | object name named body before after last only =>
      rw [value?, Option.map_eq_some_iff] at seen
      obtain ⟨es, seen, rfl⟩ := seen
      obtain ⟨x, sees, other⟩ := object_differ _ k a b name named before after last only es seen
      refine ⟨by simp, x, es, sees, rfl, fun y sees' => ?_⟩
      obtain ⟨us, seen', differ⟩ := other y sees'
      exact ⟨.object us, us, by rw [value?, seen']; rfl, by simp, rfl, differ⟩
  | list ts place =>
      rw [value?, Option.map_eq_some_iff] at seen
      obtain ⟨vs, seen, rfl⟩ := seen
      obtain ⟨room, x, sees, other⟩ := list_differ _ names k a b distinct ts place vs seen
      refine ⟨by simp, x, _, sees, if_pos room, fun y sees' => ?_⟩
      obtain ⟨ws, seen', room', differ⟩ := other y sees'
      exact ⟨.list ws, _, by rw [value?, seen']; rfl, by simp, if_pos room', differ⟩

end

end Tree

end DarkDrop.Json
