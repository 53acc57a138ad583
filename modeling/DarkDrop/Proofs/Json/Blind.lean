import DarkDrop.Proofs.Json.Rearranged

namespace DarkDrop.Json

def Blind {α : Type} (sch : Schema) (take : Value → Except Cause α) : Prop :=
  ∀ v w, Resembles sch v w → ∀ a, take v.sorted = .ok a ↔ take w.sorted = .ok a

section

variable {α : Type}

theorem scalar_blind (sch : Schema) (wanted : String) (accept : Scalar → Except Cause α) :
    Blind sch (Form.scalar wanted accept).ofValue := by
  intro v w alike a
  cases alike with
  | scalar => exact Iff.rfl
  | list | object => exact ⟨nofun, nofun⟩

theorem resembles_scalar (sch : Schema) (v w : Value) (alike : Resembles sch v w) (x : Scalar) :
    v = .scalar x ↔ w = .scalar x := by
  cases alike with
  | scalar => exact Iff.rfl
  | list | object => exact ⟨nofun, nofun⟩

theorem map_blind {β : Type} (sch : Schema) (take : Value → Except Cause α) (f : α → β) (blind : Blind sch take) :
    Blind sch fun v => (take v).map f := by
  intro v w alike b
  simp only [mapped_ok, blind v w alike]

theorem optional_blind (sch : Schema) (form : Form α) (blind : Blind sch form.ofValue) :
    Blind sch form.optional.ofValue := by
  intro v w alike a
  have same := resembles_scalar sch v w alike .null
  by_cases null : v = .scalar .null
  · rw [null, same.mp null]
  · have other : ¬ w = .scalar .null := fun here => null (same.mpr here)
    rw [optional_present form v.sorted fun here => null ((sorted_null v).mp here),
      optional_present form w.sorted fun here => other ((sorted_null w).mp here)]
    exact map_blind sch form.ofValue some blind v w alike a

theorem list_blind (form : Form α) (blind : Blind .any form.ofValue) : Blind .any form.list.ofValue := by
  intro v w alike as
  cases alike with
  | scalar => exact Iff.rfl
  | object => exact ⟨nofun, nofun⟩
  | list _ pairs each =>
      simp only [Value.sorted, sorted_list]
      change ((pairs.map Prod.fst).map Value.sorted).mapM form.ofValue = _ ↔
        ((pairs.map Prod.snd).map Value.sorted).mapM form.ofValue = _
      induction pairs generalizing as with
      | nil => exact Iff.rfl
      | cons p pairs ih =>
          have here := blind p.1 p.2 (each 0 p rfl)
          have later (as : List α) := ih as fun i q found => each (i + 1) q found
          simp only [List.map_cons, List.mapM_cons, bound_ok, here, later]

end

section

variable {σ α : Type} (rc : Record σ α)

def knownNames (ms : List (String × Value)) : List String :=
  (ms.map Prod.fst).filter fun k => (rc.field? k).isSome

theorem takes_append (draft last : σ) (ms us : List (String × Value)) :
    Takes rc draft (ms ++ us) last ↔ ∃ next, Takes rc draft ms next ∧ Takes rc next us last := by
  rw [Takes, List.foldlM_append, bound_ok]
  rfl

theorem takes_unknown (draft last : σ) (ms : List (String × Value)) (missing : ∀ m ∈ ms, rc.field? m.1 = none) :
    Takes rc draft ms last ↔ last = draft := by
  induction ms with
  | nil => exact takes_nil rc draft last
  | cons m ms ih =>
      rw [List.forall_mem_cons] at missing
      simp only [takes_cons, take_unknown rc draft m.1 m.2 missing.1, Except.ok.injEq, exists_eq_left', ih missing.2]

variable (distinct : rc.Distinct)
include distinct

-- Members are put in order before they are taken, which makes no difference if none comes twice.
theorem takes_all (start last : σ) (ms acc : List (String × Value)) (once : (knownNames rc ms).Nodup)
    (fresh : ∀ k ∈ knownNames rc ms, k ∉ acc.map Prod.fst) :
    Takes rc start (setAll ms acc) last ↔ ∃ next, Takes rc start acc next ∧ Takes rc next ms last := by
  induction ms generalizing acc with
  | nil =>
      simp only [setAll, List.foldl_nil, takes_nil, exists_eq_right']
  | cons m ms ih =>
      obtain ⟨k, v⟩ := m
      change Takes rc start (setAll ms (setMember k v acc)) last ↔ _
      cases known : rc.field? k with
      | none =>
          have names : knownNames rc ((k, v) :: ms) = knownNames rc ms := by simp [knownNames, known]
          rw [names] at once fresh
          have apart : ∀ l ∈ knownNames rc ms, l ∉ (setMember k v acc).map Prod.fst := fun l member inside => by
            rcases set_names k l v acc inside with rfl | earlier
            · simp [knownNames, known] at member
            · exact fresh l member earlier
          rw [ih _ once apart]
          simp only [takes_set_unknown rc start _ k v acc known, takes_cons,
            take_unknown rc _ k v known, Except.ok.injEq, exists_eq_left']
      | some f =>
          have names : knownNames rc ((k, v) :: ms) = k :: knownNames rc ms := by simp [knownNames, known]
          rw [names] at once fresh
          rw [List.nodup_cons] at once
          rw [List.forall_mem_cons] at fresh
          have apart : ∀ l ∈ knownNames rc ms, l ∉ (setMember k v acc).map Prod.fst := fun l member inside => by
            rcases set_names k l v acc inside with rfl | earlier
            · exact once.1 member
            · exact fresh.2 l member earlier
          rw [ih _ once.2 apart]
          simp only [takes_set rc distinct start _ k v acc fresh.1, takes_cons]
          constructor
          · rintro ⟨next, ⟨draft, before, here⟩, later⟩
            exact ⟨draft, before, next, here, later⟩
          · rintro ⟨draft, before, next, here, later⟩
            exact ⟨next, ⟨draft, before, here⟩, later⟩

theorem takes_swap (draft last : σ) (m u : String × Value) (ms : List (String × Value))
    (apart : m.1 = u.1 → rc.field? m.1 = none) (taken : Takes rc draft (m :: u :: ms) last) :
    Takes rc draft (u :: m :: ms) last := by
  obtain ⟨next, here, taken⟩ := (takes_cons rc draft last _ _).mp taken
  obtain ⟨after, there, later⟩ := (takes_cons rc next last _ _).mp taken
  by_cases same : m.1 = u.1
  · have missing := apart same
    rw [take_unknown rc draft m.1 m.2 missing] at here
    rw [take_unknown rc next u.1 u.2 (same ▸ missing)] at there
    cases here
    cases there
    refine (takes_cons rc _ last _ _).mpr ⟨_, take_unknown rc _ u.1 u.2 (same ▸ missing), ?_⟩
    exact (takes_cons rc _ last _ _).mpr ⟨_, take_unknown rc _ m.1 m.2 missing, later⟩
  · obtain ⟨between, first, second⟩ := members_swap rc distinct draft next after m.1 u.1 m.2 u.2 same here there
    exact (takes_cons rc _ last _ _).mpr ⟨between, first, (takes_cons rc _ last _ _).mpr ⟨after, second, later⟩⟩

theorem takes_perm (draft last : σ) (ms us : List (String × Value)) (same : ms.Perm us)
    (once : (knownNames rc ms).Nodup) : Takes rc draft ms last ↔ Takes rc draft us last := by
  induction same generalizing draft with
  | nil => exact Iff.rfl
  | @cons m ms us _ ih =>
      have later : (knownNames rc ms).Nodup := by
        simp only [knownNames, List.map_cons, List.filter_cons] at once
        split at once
        · exact (List.nodup_cons.mp once).2
        · exact once
      simp only [takes_cons, ih _ later]
  | swap m u ms =>
      have apart : u.1 = m.1 → rc.field? u.1 = none := by
        intro same
        by_contra known
        have some : (rc.field? u.1).isSome := Option.isSome_iff_ne_none.mpr known
        simp [knownNames, ← same, some] at once
      refine ⟨takes_swap rc distinct draft last u m ms apart, takes_swap rc distinct draft last m u ms ?_⟩
      exact fun same => same ▸ apart same.symm
  | trans first _ ih ih' =>
      have between := ((first.map Prod.fst).filter fun k => (rc.field? k).isSome).nodup_iff.mp once
      exact (ih draft once).trans (ih' draft between)

end

structure Overlooks {σ : Type} (f : Field σ) (part : String × Schema) : Prop where
  name : f.name = part.1
  blind : ∀ draft, Blind part.2 (f.ofValue draft)

theorem of_overlooks {σ α : Type} (name : String) (get : σ → Option α) (set : σ → α → σ) (form : Form α)
    (sch : Schema) (blind : Blind sch form.ofValue) : Overlooks (Field.of name get set form) (name, sch) :=
  ⟨rfl, fun draft => map_blind sch form.ofValue (set draft) blind⟩

section

variable {σ : Type} (fs : List (Field σ)) (parts : List (String × Schema))
  (overlooks : List.Forall₂ Overlooks fs parts)
include overlooks

theorem lookup_overlooks (k : String) :
    Option.Rel (fun f sch => ∀ draft, Blind sch (f.ofValue draft)) (fs.find? (·.name == k)) (parts.lookup k) := by
  induction overlooks with
  | nil => exact .none
  | @cons f part fs parts here _ ih =>
      obtain ⟨l, sch⟩ := part
      obtain ⟨rfl, blind⟩ := here
      by_cases same : f.name = k
      · subst same
        simpa [List.lookup_cons] using blind
      · have other : (k == f.name) = false := beq_eq_false_iff_ne.mpr fun here => same here.symm
        rw [List.find?_cons_of_neg (by simpa using same), List.lookup_cons, other]
        exact ih

theorem order_blind (pairs : List (Value × Value))
    (alike : ∀ i p, pairs[i]? = some p → Resembles ((Schema.record parts).place i) p.1 p.2) (draft last : σ) :
    Record.takeInOrder fs draft ((pairs.map Prod.fst).map Value.sorted) = .ok last ↔
      Record.takeInOrder fs draft ((pairs.map Prod.snd).map Value.sorted) = .ok last := by
  induction overlooks generalizing pairs draft with
  | nil => cases pairs <;> exact Iff.rfl
  | cons here _ ih =>
      cases pairs with
      | nil => exact Iff.rfl
      | cons p pairs =>
          have first := here.blind draft p.1 p.2 (alike 0 p rfl)
          have later (next : σ) := ih pairs (fun i q found => alike (i + 1) q found) next
          simp only [List.map_cons, Record.takeInOrder, bound_ok, first, later]

end

section

variable {σ α : Type} (rc : Record σ α) (parts : List (String × Schema))
  (overlooks : List.Forall₂ Overlooks rc.fields parts)
include overlooks

theorem member_blind (draft next : σ) (k : String) (v w : Value)
    (alike : Resembles ((Schema.record parts).under k) v w) :
    rc.takeMember draft (k, v.sorted) = .ok next ↔ rc.takeMember draft (k, w.sorted) = .ok next := by
  have found := lookup_overlooks rc.fields parts overlooks k
  rw [Schema.under] at alike
  cases known : rc.field? k with
  | none => rw [take_unknown rc draft k _ known, take_unknown rc draft k _ known]
  | some f =>
      rw [take_known rc draft k _ f known, take_known rc draft k _ f known]
      rw [show rc.fields.find? (·.name == k) = some f from known] at found
      generalize parts.lookup k = sch at found alike
      cases found with
      | some blind => exact blind draft v w alike next

theorem takes_blind (pairs : List ((String × Value) × (String × Value))) (names : ∀ p ∈ pairs, p.1.1 = p.2.1)
    (alike : ∀ p ∈ pairs, Resembles ((Schema.record parts).under p.1.1) p.1.2 p.2.2) (draft last : σ) :
    Takes rc draft (sortedValues (pairs.map Prod.fst)) last ↔
      Takes rc draft (sortedValues (pairs.map Prod.snd)) last := by
  induction pairs generalizing draft with
  | nil => exact Iff.rfl
  | cons p pairs ih =>
      obtain ⟨⟨k, v⟩, ⟨l, w⟩⟩ := p
      simp only [List.forall_mem_cons] at names alike
      obtain ⟨rfl, names⟩ := names
      have member (next : σ) := member_blind rc parts overlooks draft next k v w alike.1
      simp only [sortedValues, List.map_cons, takes_cons, member]
      exact exists_congr fun next => and_congr_right fun _ => ih names alike.2 next

theorem strange_unknown (added : List (String × Value)) (new : ∀ m ∈ added, ¬ (Schema.record parts).Defines m.1) :
    ∀ m ∈ sortedValues added, rc.field? m.1 = none := by
  intro m member
  obtain ⟨u, inside, rfl⟩ := List.mem_map.mp member
  have found := lookup_overlooks rc.fields parts overlooks u.1
  have missing : parts.lookup u.1 = none := List.lookup_eq_none_iff.mpr fun part listed => by
    by_contra same
    exact new u inside (List.mem_map.mpr ⟨part, listed, (by simpa using same : u.1 = part.1).symm⟩)
  rw [missing] at found
  change rc.fields.find? (·.name == u.1) = none
  generalize rc.fields.find? (·.name == u.1) = f at found
  cases found
  rfl

variable (distinct : rc.Distinct)
include distinct

theorem object_blind (pairs : List ((String × Value) × (String × Value))) (added ms : List (String × Value))
    (once : ((pairs.map Prod.fst).map Prod.fst).Nodup) (names : ∀ p ∈ pairs, p.1.1 = p.2.1)
    (alike : ∀ p ∈ pairs, Resembles ((Schema.record parts).under p.1.1) p.1.2 p.2.2)
    (new : ∀ m ∈ added, ¬ (Schema.record parts).Defines m.1)
    (order : ms.Perm (pairs.map Prod.snd ++ added)) (last : σ) :
    Takes rc rc.blank (setAll (sortedValues (pairs.map Prod.fst)) []) last ↔
      Takes rc rc.blank (setAll (sortedValues ms) []) last := by
  have strange := strange_unknown rc parts overlooks added new
  have sorted : (sortedValues ms).Perm (sortedValues (pairs.map Prod.snd) ++ sortedValues added) := by
    simpa [sortedValues] using order.map fun m => (m.1, m.2.sorted)
  have same := paired_names pairs names
  have left : (knownNames rc (sortedValues (pairs.map Prod.fst))).Nodup := by
    rw [knownNames, sorted_names]
    exact once.filter _
  have none : knownNames rc (sortedValues added) = [] := by
    refine List.filter_eq_nil_iff.mpr fun k member => ?_
    obtain ⟨m, inside, rfl⟩ := List.mem_map.mp member
    simp [strange m inside]
  have right : (knownNames rc (sortedValues ms)).Nodup := by
    rw [knownNames] at none left ⊢
    rw [((sorted.map Prod.fst).filter _).nodup_iff, List.map_append, List.filter_append, none, List.append_nil,
      sorted_names, same]
    rwa [sorted_names] at left
  rw [takes_all rc distinct _ _ _ [] left (by simp), takes_all rc distinct _ _ _ [] right (by simp)]
  refine exists_congr fun next => and_congr_right fun _ => ?_
  rw [takes_perm rc distinct next last _ _ sorted right, takes_append, takes_blind rc parts overlooks pairs names alike]
  simp only [takes_unknown rc _ _ _ strange, exists_eq_right']

theorem record_blind : Blind (.record parts) rc.form.ofValue := by
  intro v w alike a
  cases alike with
  | scalar => exact Iff.rfl
  | list _ pairs alike =>
      simp only [Value.sorted, sorted_list, listed_value, order_blind rc.fields parts overlooks pairs alike,
        List.length_map]
  | object _ pairs added ms once names alike new order =>
      simp only [Value.sorted, sorted_members, object_value]
      exact exists_congr fun draft => and_congr_left fun _ =>
        object_blind rc parts overlooks distinct pairs added ms once names alike new order draft

end

end DarkDrop.Json
