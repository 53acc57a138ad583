import DarkDrop.Proofs.Json.RecordWays
import Mathlib.Data.List.Forall2
import Mathlib.Data.String.Basic

namespace DarkDrop.Json

namespace Value

def IsText (v : Value) : Prop := ∃ s, v = ofString s
def IsCount (v : Value) : Prop := ∃ n, v = ofNat n
def Nullable (shape : Value → Prop) (v : Value) : Prop := v = .scalar .null ∨ shape v
def IsList (shape : Value → Prop) (v : Value) : Prop := ∃ vs, v = .list vs ∧ ∀ w ∈ vs, shape w

def members? (names : List String) : Value → Option (List (String × Value))
  | .object ms => some ms
  | .list vs => if vs.length ≤ names.length then some (names.zip vs) else none
  | .scalar _ => none

def Fits (parts : List (String × (Value → Prop))) (ms : List (String × Value)) : Prop :=
  ∀ part ∈ parts, ∀ w, (part.1, w) ∈ ms → part.2 w

def IsRecord (parts : List (String × (Value → Prop))) (v : Value) : Prop :=
  ∃ ms, v.members? (parts.map Prod.fst) = some ms ∧ Fits parts ms

theorem fits_cons (parts : List (String × (Value → Prop))) (m : String × Value) (ms : List (String × Value)) :
    Fits parts (m :: ms) ↔ (∀ part ∈ parts, part.1 = m.1 → part.2 m.2) ∧ Fits parts ms := by
  obtain ⟨k, v⟩ := m
  constructor
  · intro fits
    refine ⟨fun part member same => fits part member v ?_, fun part member w inside => ?_⟩
    · rw [same]
      exact List.mem_cons_self
    · exact fits part member w (List.mem_cons_of_mem _ inside)
  · rintro ⟨here, others⟩ part member w inside
    rcases List.mem_cons.mp inside with same | inside
    · cases same
      exact here part member rfl
    · exact others part member w inside

end Value

def Shapes {α : Type} (form : Form α) (shape : Value → Prop) : Prop :=
  ∀ v, (∃ a, form.ofValue v = .ok a) ↔ shape v

theorem count_value (wanted : String) (v : Value) (n : UInt64) :
    (Form.count wanted).ofValue v = .ok n ↔ v = .ofNat n := by
  cases v with
  | scalar x =>
      cases x with
      | number n => cases n <;> simp [Form.count, Form.scalar, Value.ofNat]
      | null | bool | text => simp [Form.count, Form.scalar, Value.ofNat]
  | list | object => simp [Form.count, Form.scalar, Value.ofNat]

theorem count_shapes (wanted : String) : Shapes (.count wanted) Value.IsCount :=
  fun v => exists_congr fun n => count_value wanted v n

theorem text_shapes : Shapes .text Value.IsText := by
  intro v
  cases v with
  | scalar x => cases x <;> simp [Form.text, Form.scalar, Value.IsText, Value.ofString]
  | list | object => simp [Form.text, Form.scalar, Value.IsText, Value.ofString]

theorem any_shapes (d : Nat) : Shapes (.any d) fun _ => True := fun v => ⟨fun _ => trivial, fun _ => ⟨v, rfl⟩⟩

theorem mapped_exists {ε α β : Type} (x : Except ε α) (f : α → β) :
    (∃ b, x.map f = .ok b) ↔ ∃ a, x = .ok a := by
  cases x <;> simp [Except.map]

section

variable {α : Type} (form : Form α) (shape : Value → Prop) (shapes : Shapes form shape)
include shapes

theorem optional_shapes : Shapes form.optional (Value.Nullable shape) := by
  intro v
  by_cases null : v = .scalar .null
  · rw [null]
    exact ⟨fun _ => .inl rfl, fun _ => ⟨none, rfl⟩⟩
  · rw [optional_present form v null, mapped_exists, shapes v, Value.Nullable]
    simp [null]

theorem elements_shape (vs : List Value) :
    (∃ as, vs.mapM form.ofValue = .ok as) ↔ ∀ v ∈ vs, shape v := by
  induction vs with
  | nil => simp [pure, Except.pure]
  | cons v vs ih =>
      rw [List.forall_mem_cons, ← shapes v, ← ih]
      simp only [List.mapM_cons, bound_ok, pure, Except.pure]
      constructor
      · rintro ⟨_, a, here, as, others, _⟩
        exact ⟨⟨a, here⟩, as, others⟩
      · rintro ⟨⟨a, here⟩, as, others⟩
        exact ⟨_, a, here, as, others, rfl⟩

theorem list_shapes : Shapes form.list (Value.IsList shape) := by
  intro v
  cases v with
  | list vs =>
      rw [Value.IsList, show form.list.ofValue (.list vs) = vs.mapM form.ofValue from rfl,
        elements_shape form shape shapes vs]
      simp
  | scalar | object => simp [Form.list, Value.IsList]

end

structure Describes {σ : Type} (f : Field σ) (part : String × (Value → Prop)) : Prop where
  name : f.name = part.1
  takes : ∀ draft v, (∃ next, f.ofValue draft v = .ok next) ↔ part.2 v

theorem of_describes {σ α : Type} (name : String) (get : σ → Option α) (set : σ → α → σ) (form : Form α)
    (shape : Value → Prop) (shapes : Shapes form shape) :
    Describes (Field.of name get set form) (name, shape) := by
  refine ⟨rfl, fun draft v => ?_⟩
  exact (mapped_exists (form.ofValue v) (set draft)).trans (shapes v)

section

variable {σ : Type} (fs : List (Field σ)) (parts : List (String × (Value → Prop)))
  (described : List.Forall₂ Describes fs parts)
include described

theorem field_part (f : Field σ) (member : f ∈ fs) : ∃ part ∈ parts, Describes f part := by
  induction described with
  | nil => cases member
  | cons here _ ih =>
      rcases List.mem_cons.mp member with rfl | later
      · exact ⟨_, List.mem_cons_self, here⟩
      · obtain ⟨part, inside, describes⟩ := ih later
        exact ⟨part, List.mem_cons_of_mem _ inside, describes⟩

theorem part_field (part : String × (Value → Prop)) (member : part ∈ parts) :
    ∃ f ∈ fs, Describes f part := by
  induction described with
  | nil => cases member
  | cons here _ ih =>
      rcases List.mem_cons.mp member with rfl | later
      · exact ⟨_, List.mem_cons_self, here⟩
      · obtain ⟨f, inside, describes⟩ := ih later
        exact ⟨f, List.mem_cons_of_mem _ inside, describes⟩

theorem part_names : fs.map (·.name) = parts.map Prod.fst := by
  induction described with
  | nil => rfl
  | cons here _ ih => rw [List.map_cons, List.map_cons, here.name, ih]

end

section

variable {σ α : Type} (rc : Record σ α)

-- Under their names, the elements of a list are taken like the members of an object.
theorem order_members (fs : List (Field σ)) (found : ∀ f ∈ fs, rc.field? f.name = some f) (draft : σ)
    (vs : List Value) :
    Record.takeInOrder fs draft vs = ((fs.map (·.name)).zip vs).foldlM rc.takeMember draft := by
  induction fs generalizing draft vs with
  | nil => cases vs <;> rfl
  | cons f fs ih =>
    cases vs with
    | nil => rfl
    | cons v vs =>
        rw [Record.takeInOrder, List.map_cons, List.zip_cons_cons, List.foldlM_cons,
          take_known rc draft f.name v f (found f (by simp))]
        exact congrArg _ (funext fun next => ih (fun g member => found g (by simp [member])) next vs)

variable (distinct : rc.Distinct)
include distinct

theorem field_found (f : Field σ) (member : f ∈ rc.fields) : rc.field? f.name = some f := by
  cases found : rc.field? f.name with
  | none =>
      have missing := List.find?_eq_none.mp found f member
      simp at missing
  | some g =>
      obtain ⟨inside, same⟩ := field_named rc f.name g found
      by_contra other
      have apart := distinct.apart.forall inside member fun alike => other (by rw [alike])
      exact apart.names same

theorem record_members (v : Value) (a : α) :
    rc.form.ofValue v = .ok a ↔ ∃ ms, v.members? (rc.fields.map (·.name)) = some ms ∧
      ∃ draft, Takes rc rc.blank ms draft ∧ rc.complete draft = .ok a := by
  cases v with
  | scalar x => simp [Record.form, Value.members?]
  | object ms => simp [object_value, Value.members?]
  | list vs =>
      rw [listed_value, order_members rc rc.fields (field_found rc distinct)]
      simp only [Value.members?, List.length_map]
      split
      · rename_i short
        simp [short, Takes]
      · rename_i long
        simp [long]

variable (parts : List (String × (Value → Prop))) (described : List.Forall₂ Describes rc.fields parts)
include described

theorem member_shape (draft : σ) (k : String) (v : Value) :
    (∃ next, rc.takeMember draft (k, v) = .ok next) ↔ ∀ part ∈ parts, part.1 = k → part.2 v := by
  cases known : rc.field? k with
  | none =>
      rw [take_unknown rc draft k v known]
      refine ⟨fun _ part member same => ?_, fun _ => ⟨draft, rfl⟩⟩
      obtain ⟨f, inside, describes⟩ := part_field rc.fields parts described part member
      have found := field_found rc distinct f inside
      rw [describes.name, same, known] at found
      cases found
  | some f =>
      rw [take_known rc draft k v f known]
      obtain ⟨inside, named⟩ := field_named rc k f known
      constructor
      · intro taken part member same
        obtain ⟨g, there, describes⟩ := part_field rc.fields parts described part member
        have found := field_found rc distinct g there
        rw [describes.name, same, known] at found
        cases found
        exact (describes.takes draft v).mp taken
      · intro fits
        obtain ⟨part, member, describes⟩ := field_part rc.fields parts described f inside
        exact (describes.takes draft v).mpr (fits part member (describes.name.symm.trans named))

theorem takes_fit (draft : σ) (ms : List (String × Value)) :
    (∃ last, Takes rc draft ms last) ↔ Value.Fits parts ms := by
  induction ms generalizing draft with
  | nil => exact ⟨fun _ part _ w inside => (by cases inside), fun _ => ⟨draft, (takes_nil rc _ _).mpr rfl⟩⟩
  | cons m ms ih =>
      rw [Value.fits_cons, ← member_shape rc distinct parts described draft m.1 m.2]
      simp only [takes_cons]
      constructor
      · rintro ⟨last, next, here, others⟩
        exact ⟨⟨next, here⟩, (ih next).mp ⟨last, others⟩⟩
      · rintro ⟨⟨next, here⟩, fits⟩
        obtain ⟨last, others⟩ := (ih next).mpr fits
        exact ⟨last, next, here, others⟩

theorem record_shapes (complete : ∀ draft, ∃ a, rc.complete draft = .ok a) :
    Shapes rc.form (Value.IsRecord parts) := by
  intro v
  simp only [record_members rc distinct, part_names rc.fields parts described, Value.IsRecord,
    ← takes_fit rc distinct parts described rc.blank]
  constructor
  · rintro ⟨_, ms, found, draft, taken, _⟩
    exact ⟨ms, found, draft, taken⟩
  · rintro ⟨ms, found, draft, taken⟩
    obtain ⟨a, whole⟩ := complete draft
    exact ⟨a, ms, found, draft, taken, whole⟩

end

structure Record.Holds {σ α β : Type} (rc : Record σ α) (name : String) (get : σ → Option β) (form : Form β) :
    Prop where
  puts : ∀ draft next v, rc.takeMember draft (name, v) = .ok next → ∃ b, form.ofValue v = .ok b ∧ get next = some b
  keeps : ∀ draft next k v, k ≠ name → rc.takeMember draft (k, v) = .ok next → get next = get draft

section

variable {σ α β : Type} (rc : Record σ α) (name : String) (get : σ → Option β) (form : Form β)

theorem of_keeps {γ ε : Type} (read : σ → ε) (k : String) (get' : σ → Option γ) (set' : σ → γ → σ)
    (form' : Form γ) (spares : ∀ draft c, read (set' draft c) = read draft) (draft next : σ) (v : Value)
    (taken : (Field.of k get' set' form').ofValue draft v = .ok next) : read next = read draft := by
  obtain ⟨c, _, rfl⟩ := map_eq_ok taken
  exact spares draft c

theorem holds_of (set : σ → β → σ) (found : rc.field? name = some (Field.of name get set form))
    (held : ∀ draft b, get (set draft b) = some b)
    (spared : ∀ f ∈ rc.fields, f.name ≠ name → ∀ draft next v, f.ofValue draft v = .ok next →
      get next = get draft) : rc.Holds name get form := by
  refine ⟨fun draft next v taken => ?_, fun draft next k v other taken => ?_⟩
  · rw [take_known rc draft name v _ found] at taken
    obtain ⟨b, value, rfl⟩ := map_eq_ok taken
    exact ⟨b, value, held draft b⟩
  · cases known : rc.field? k with
    | none =>
        rw [take_unknown rc draft k v known] at taken
        cases taken
        rfl
    | some f =>
        obtain ⟨inside, named⟩ := field_named rc k f known
        rw [take_known rc draft k v f known] at taken
        exact spared f inside (named ▸ other) draft next v taken

variable (holds : rc.Holds name get form)
include holds

theorem takes_kept (draft last : σ) (ms : List (String × Value)) (taken : Takes rc draft ms last)
    (absent : name ∉ ms.map Prod.fst) : get last = get draft := by
  induction ms generalizing draft with
  | nil => rw [(takes_nil rc draft last).mp taken]
  | cons m ms ih =>
      obtain ⟨k, v⟩ := m
      simp only [List.map_cons, List.mem_cons, not_or] at absent
      obtain ⟨next, here, others⟩ := (takes_cons rc draft last _ _).mp taken
      rw [ih next others absent.2, holds.keeps draft next k v (Ne.symm absent.1) here]

theorem takes_held (draft last : σ) (ms : List (String × Value)) (taken : Takes rc draft ms last)
    (once : (ms.map Prod.fst).Nodup) (w : Value) (member : (name, w) ∈ ms) :
    ∃ b, form.ofValue w = .ok b ∧ get last = some b := by
  induction ms generalizing draft with
  | nil => cases member
  | cons m ms ih =>
      rw [List.map_cons, List.nodup_cons] at once
      obtain ⟨next, here, others⟩ := (takes_cons rc draft last _ _).mp taken
      rcases List.mem_cons.mp member with rfl | later
      · obtain ⟨b, value, put⟩ := holds.puts draft next w here
        exact ⟨b, value, (takes_kept rc name get form holds next last ms others once.1).trans put⟩
      · exact ih next others once.2 later

end

theorem set_perm (k : String) (v : Value) (ms : List (String × Value)) (fresh : k ∉ ms.map Prod.fst) :
    (setMember k v ms).Perm ((k, v) :: ms) := by
  induction ms with
  | nil => exact .refl _
  | cons m ms ih =>
      obtain ⟨l, w⟩ := m
      simp only [List.map_cons, List.mem_cons, not_or] at fresh
      rw [setMember, if_neg fresh.1]
      split
      · exact .refl _
      · exact ((ih fresh.2).cons _).trans (.swap _ _ _)

theorem set_all_perm (ms acc : List (String × Value)) (once : ((ms ++ acc).map Prod.fst).Nodup) :
    (setAll ms acc).Perm (ms ++ acc) := by
  induction ms generalizing acc with
  | nil => exact .refl _
  | cons m ms ih =>
      have fresh : m.1 ∉ acc.map Prod.fst := by
        simp only [List.cons_append, List.map_cons, List.map_append, List.nodup_cons, List.mem_append,
          not_or] at once
        exact once.1.2
      have moved : (ms ++ setMember m.1 m.2 acc).Perm (m :: ms ++ acc) :=
        ((set_perm m.1 m.2 acc fresh).append_left ms).trans List.perm_middle
      exact (ih _ ((moved.map Prod.fst).nodup_iff.mpr once)).trans moved

theorem zip_names (names : List String) (vs : List Value) :
    ((names.zip vs).map Prod.fst).Sublist names := by
  induction names generalizing vs with
  | nil => exact .refl _
  | cons k names ih =>
      cases vs with
      | nil => exact List.nil_sublist _
      | cons v vs => exact (ih vs).cons_cons k

section

variable (names : List String) (v : Value) (once : ¬ v.Repeats) (ms : List (String × Value))
  (found : v.members? names = some ms)
include once found

theorem found_once (member : String × Value) (inside : member ∈ ms) : ¬ member.2.Repeats := by
  cases v with
  | scalar => cases found
  | object =>
      cases found
      exact fun repeats => once (.member ms member inside repeats)
  | list vs =>
      rw [Value.members?] at found
      split at found
      · cases found
        exact fun repeats => once (.element vs member.2 (List.of_mem_zip inside).2 repeats)
      · cases found

theorem names_once (distinct : names.Nodup) : (ms.map Prod.fst).Nodup := by
  cases v with
  | scalar => cases found
  | object =>
      cases found
      by_contra twice
      exact once (.here ms twice)
  | list vs =>
      rw [Value.members?] at found
      split at found
      · cases found
        exact distinct.sublist (zip_names names vs)
      · cases found

theorem sorted_found : ∃ us, v.sorted.members? names = some us ∧ us.Perm (sortedValues ms) := by
  cases v with
  | scalar => cases found
  | object =>
      cases found
      refine ⟨setAll (sortedValues ms) [], by rw [Value.sorted, sorted_members]; rfl, ?_⟩
      have apart : (ms.map Prod.fst).Nodup := by
        by_contra twice
        exact once (.here ms twice)
      simpa using set_all_perm (sortedValues ms) [] (by rwa [List.append_nil, sorted_names])
  | list vs =>
      rw [Value.members?] at found
      split at found
      · rename_i short
        cases found
        refine ⟨names.zip (vs.map Value.sorted), ?_, ?_⟩
        · rw [Value.sorted, sorted_list, Value.members?, List.length_map, if_pos short]
        · rw [sortedValues, List.zip_map_right]
          exact .refl _
      · cases found

end

theorem sorted_unfound (names : List String) (v : Value) (unfound : v.members? names = none) :
    v.sorted.members? names = none := by
  cases v with
  | scalar => rw [Value.sorted]; rfl
  | object => cases unfound
  | list vs =>
      rw [Value.members?] at unfound
      rw [Value.sorted, sorted_list, Value.members?, List.length_map]
      split at unfound
      · cases unfound
      · rename_i long
        rw [if_neg long]

theorem set_ordered (k : String) (v : Value) (ms : List (String × Value))
    (ordered : (ms.map Prod.fst).Pairwise (· < ·)) : ((setMember k v ms).map Prod.fst).Pairwise (· < ·) := by
  induction ms with
  | nil => simp [setMember]
  | cons m ms ih =>
      obtain ⟨l, w⟩ := m
      rw [List.map_cons, List.pairwise_cons] at ordered
      obtain ⟨above, later⟩ := ordered
      rw [setMember]
      split_ifs with same before
      · subst same
        exact List.pairwise_cons.mpr ⟨above, later⟩
      · refine List.pairwise_cons.mpr ⟨fun j member => ?_, List.pairwise_cons.mpr ⟨above, later⟩⟩
        rcases List.mem_cons.mp member with rfl | inside
        · exact before
        · exact before.trans (above j inside)
      · refine List.pairwise_cons.mpr ⟨fun j member => ?_, ih later⟩
        rcases set_names k j v ms member with rfl | inside
        · exact lt_of_le_of_ne (not_lt.mp before) (Ne.symm same)
        · exact above j inside

theorem sorted_once (names : List String) (distinct : names.Nodup) (v : Value) (us : List (String × Value))
    (found : v.sorted.members? names = some us) : (us.map Prod.fst).Nodup := by
  cases v with
  | scalar => cases found
  | list vs =>
      rw [Value.sorted, Value.members?] at found
      split at found
      · cases found
        exact distinct.sublist (zip_names names _)
      · cases found
  | object ms =>
      have ordered (ms acc : List (String × Value)) (start : (acc.map Prod.fst).Pairwise (· < ·)) :
          ((sortedMembers acc ms).map Prod.fst).Pairwise (· < ·) := by
        induction ms generalizing acc with
        | nil => exact start
        | cons m ms ih => exact ih _ (set_ordered m.1 m.2.sorted acc start)
      cases found
      exact (ordered ms [] .nil).imp ne_of_lt

def Stable (shape : Value → Prop) : Prop := ∀ v : Value, ¬ v.Repeats → (shape v.sorted ↔ shape v)

theorem count_stable : Stable Value.IsCount := by
  intro v _
  cases v <;> simp [Value.sorted, Value.IsCount, Value.ofNat]

theorem text_stable : Stable Value.IsText := by
  intro v _
  cases v <;> simp [Value.sorted, Value.IsText, Value.ofString]

theorem sorted_null (v : Value) : v.sorted = .scalar .null ↔ v = .scalar .null := by
  cases v <;> simp [Value.sorted]

section

variable (shape : Value → Prop) (stable : Stable shape)
include stable

theorem nullable_stable : Stable (Value.Nullable shape) := by
  intro v once
  rw [Value.Nullable, Value.Nullable, sorted_null, stable v once]

theorem list_stable : Stable (Value.IsList shape) := by
  intro v once
  cases v with
  | list vs =>
      have each : ∀ w ∈ vs, (shape w.sorted ↔ shape w) := fun w member =>
        stable w fun repeats => once (.element vs w member repeats)
      simp only [Value.sorted, sorted_list, Value.IsList, Value.list.injEq, exists_eq_left', List.forall_mem_map]
      exact forall₂_congr each
  | scalar | object => simp [Value.sorted, Value.IsList]

end

theorem fits_stable (parts : List (String × (Value → Prop))) (stable : ∀ part ∈ parts, Stable part.2)
    (ms us : List (String × Value)) (once : ∀ m ∈ ms, ¬ m.2.Repeats) (same : us.Perm (sortedValues ms)) :
    Value.Fits parts us ↔ Value.Fits parts ms := by
  constructor
  · intro fits part member w inside
    have sorted : (part.1, w.sorted) ∈ us := same.mem_iff.mpr (List.mem_map.mpr ⟨_, inside, rfl⟩)
    exact (stable part member w (once _ inside)).mp (fits part member _ sorted)
  · intro fits part member u inside
    obtain ⟨⟨k, w⟩, within, sorted⟩ := List.mem_map.mp (same.mem_iff.mp inside)
    cases sorted
    exact (stable part member w (once _ within)).mpr (fits part member w within)

theorem record_stable (parts : List (String × (Value → Prop))) (stable : ∀ part ∈ parts, Stable part.2) :
    Stable (Value.IsRecord parts) := by
  intro v once
  rw [Value.IsRecord, Value.IsRecord]
  cases found : v.members? (parts.map Prod.fst) with
  | none => rw [sorted_unfound _ v found]
  | some ms =>
      obtain ⟨us, sorted, same⟩ := sorted_found _ v once ms found
      have each := found_once _ v once ms found
      rw [sorted]
      simpa using fits_stable parts stable ms us each same

end DarkDrop.Json
