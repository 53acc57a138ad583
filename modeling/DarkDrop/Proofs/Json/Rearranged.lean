import DarkDrop.Proofs.Json.Layout
import Mathlib.Data.List.Perm.Basic

namespace DarkDrop.Json

-- The names that an object defines, and what the values under them define in turn; a list of the same
-- values goes by their order. To an object of which nothing is known nothing can be added.
inductive Schema where
  | any
  | record (fields : List (String × Schema))

namespace Schema

def under : Schema → String → Schema
  | any, _ => any
  | record fields, k => (fields.lookup k).getD any

def place : Schema → Nat → Schema
  | any, _ => any
  | record fields, i => (fields[i]?.map Prod.snd).getD any

def Defines : Schema → String → Prop
  | any, _ => True
  | record fields, k => k ∈ fields.map Prod.fst

instance (sch : Schema) (k : String) : Decidable (sch.Defines k) :=
  match sch with
  | any => inferInstanceAs (Decidable True)
  | record fields => inferInstanceAs (Decidable (k ∈ fields.map Prod.fst))

def atName (sch : Schema) (name : List Char) : Schema := ((name? name).map sch.under).getD any

theorem at_name (sch : Schema) (name : List Char) (k : String) (named : name? name = some k) :
    sch.atName name = sch.under k := by
  rw [atName, named]
  rfl

end Schema

structure Addition (sch : Schema) (d : Nat) (m : List Char × Tree) : Prop where
  body : Body m.1
  valid : m.2.Valid
  new : ∃ k, name? m.1 = some k ∧ ¬ sch.Defines k
  readable : ∃ v, m.2.value? d = some v

-- The members of every object in another order, with others added where the names are known.
inductive Rearranged : Schema → Nat → Tree → Tree → Prop where
  | leaf (sch : Schema) (d : Nat) (lexeme : List Char) : Rearranged sch d (.leaf lexeme) (.leaf lexeme)
  | list (sch : Schema) (d : Nat) (pairs : List (Tree × Tree))
      (each : ∀ i p, pairs[i]? = some p → Rearranged (sch.place i) (d - 1) p.1 p.2) :
      Rearranged sch d (.list (pairs.map Prod.fst)) (.list (pairs.map Prod.snd))
  | object (sch : Schema) (d : Nat) (pairs : List ((List Char × Tree) × (List Char × Tree)))
      (added ms : List (List Char × Tree)) (names : ∀ p ∈ pairs, p.1.1 = p.2.1)
      (each : ∀ p ∈ pairs, Rearranged (sch.atName p.1.1) (d - 1) p.1.2 p.2.2)
      (new : ∀ m ∈ added, Addition sch (d - 1) m) (order : ms.Perm (pairs.map Prod.snd ++ added)) :
      Rearranged sch d (.object (pairs.map Prod.fst)) (.object ms)

inductive Tree.Repeats : Tree → Prop where
  | here (ms : List (List Char × Tree)) (twice : ¬ (ms.filterMap fun m => name? m.1).Nodup) :
      Tree.Repeats (.object ms)
  | element (ts : List Tree) (t : Tree) (member : t ∈ ts) (inside : t.Repeats) : Tree.Repeats (.list ts)
  | member (ms : List (List Char × Tree)) (m : List Char × Tree) (member : m ∈ ms) (inside : m.2.Repeats) :
      Tree.Repeats (.object ms)

theorem leaf_once (lexeme : List Char) : ¬ (Tree.leaf lexeme).Repeats := by
  intro repeats
  cases repeats

theorem repeats_object (ms : List (List Char × Tree)) :
    (Tree.object ms).Repeats ↔ ¬ (ms.filterMap fun m => name? m.1).Nodup ∨ ∃ m ∈ ms, m.2.Repeats := by
  constructor
  · intro repeats
    cases repeats with
    | here _ twice => exact .inl twice
    | member _ m member inside => exact .inr ⟨m, member, inside⟩
  · rintro (twice | ⟨m, member, inside⟩)
    · exact .here ms twice
    · exact .member ms m member inside

theorem rearranged_valid (sch : Schema) (d : Nat) (t u : Tree) (moved : Rearranged sch d t u) (valid : t.Valid) :
    u.Valid := by
  induction moved with
  | leaf => exact valid
  | list sch d pairs _ ih =>
      cases valid with
      | list _ each =>
          refine .list _ fun u member => ?_
          obtain ⟨p, inside, rfl⟩ := List.mem_map.mp member
          obtain ⟨i, found⟩ := List.mem_iff_getElem?.mp inside
          exact ih i p found (each _ (List.mem_map_of_mem inside))
  | object sch d pairs added ms names _ new order ih =>
      cases valid with
      | object _ bodies each =>
          have known (m : List Char × Tree) (member : m ∈ ms) : Body m.1 ∧ m.2.Valid := by
            rcases List.mem_append.mp (order.mem_iff.mp member) with kept | other
            · obtain ⟨p, inside, rfl⟩ := List.mem_map.mp kept
              have before := List.mem_map_of_mem (f := Prod.fst) inside
              exact ⟨names p inside ▸ bodies _ before, ih p inside (each _ before)⟩
            · exact ⟨(new m other).body, (new m other).valid⟩
          exact .object ms (fun m member => (known m member).1) fun m member => (known m member).2

section

variable {α β γ δ : Type}

theorem mapped_places (related : Nat → γ → δ → Prop) (f : α → Option γ) (g : β → Option δ) (pairs : List (α × β))
    (each : ∀ i p, pairs[i]? = some p → Option.Rel (related i) (f p.1) (g p.2)) :
    Option.Rel (fun cs ds => ∃ qs : List (γ × δ), cs = qs.map Prod.fst ∧ ds = qs.map Prod.snd ∧
      ∀ i q, qs[i]? = some q → related i q.1 q.2) ((pairs.map Prod.fst).mapM f) ((pairs.map Prod.snd).mapM g) := by
  induction pairs generalizing related with
  | nil => exact .some ⟨[], rfl, rfl, by simp⟩
  | cons p pairs ih =>
      have here := each 0 p rfl
      have later := ih (fun i => related (i + 1)) fun i q found => each (i + 1) q found
      rw [List.map_cons, List.map_cons, List.mapM_cons, List.mapM_cons]
      generalize f p.1 = c at here
      generalize g p.2 = d at here
      cases here with
      | none => exact .none
      | some pair =>
          generalize (pairs.map Prod.fst).mapM f = cs at later
          generalize (pairs.map Prod.snd).mapM g = ds at later
          cases later with
          | none => exact .none
          | some rest =>
              obtain ⟨qs, rfl, rfl, all⟩ := rest
              refine .some ⟨(_, _) :: qs, rfl, rfl, fun i q found => ?_⟩
              cases i with
              | zero =>
                  cases found
                  exact pair
              | succ i => exact all i q found

theorem mapped_pairs (related : γ → δ → Prop) (f : α → Option γ) (g : β → Option δ) (pairs : List (α × β))
    (each : ∀ p ∈ pairs, Option.Rel related (f p.1) (g p.2)) :
    Option.Rel (fun cs ds => ∃ qs : List (γ × δ), cs = qs.map Prod.fst ∧ ds = qs.map Prod.snd ∧
      ∀ q ∈ qs, related q.1 q.2) ((pairs.map Prod.fst).mapM f) ((pairs.map Prod.snd).mapM g) := by
  have placed := mapped_places (fun _ => related) f g pairs fun i p found => each p (List.mem_of_getElem? found)
  generalize (pairs.map Prod.fst).mapM f = cs at placed
  generalize (pairs.map Prod.snd).mapM g = ds at placed
  cases placed with
  | none => exact .none
  | some rest =>
      obtain ⟨qs, rfl, rfl, all⟩ := rest
      refine .some ⟨qs, rfl, rfl, fun q member => ?_⟩
      obtain ⟨i, found⟩ := List.mem_iff_getElem?.mp member
      exact all i q found

theorem rel_trans (first second third : α → α → Prop) (joins : ∀ a b c, first a b → second b c → third a c)
    (x y z : Option α) (here : Option.Rel first x y) (there : Option.Rel second y z) : Option.Rel third x z := by
  cases here with
  | none =>
      cases there
      exact .none
  | some pair =>
      cases there with
      | some other => exact .some (joins _ _ _ pair other)

theorem perm_mapped (f : α → Option γ) (as bs : List α) (same : as.Perm bs) :
    Option.Rel List.Perm (as.mapM f) (bs.mapM f) := by
  induction same with
  | nil => exact .some (.refl _)
  | cons a _ ih =>
      rw [List.mapM_cons, List.mapM_cons]
      cases f a with
      | none => exact .none
      | some c =>
          generalize List.mapM f _ = x at ih
          generalize List.mapM f _ = y at ih
          cases ih with
          | none => exact .none
          | some same => exact .some (same.cons c)
  | swap a b as =>
      simp only [List.mapM_cons]
      cases f a <;> cases f b <;> cases as.mapM f <;> first | exact .none | exact .some (.swap _ _ _)
  | trans _ _ ih ih' => exact rel_trans List.Perm List.Perm _ (fun _ _ _ => .trans) _ _ _ ih ih'

theorem all_mapped (f : α → Option γ) (p : γ → Prop) (as : List α) (each : ∀ a ∈ as, ∃ c, f a = some c ∧ p c) :
    ∃ cs, as.mapM f = some cs ∧ ∀ c ∈ cs, p c := by
  induction as with
  | nil => exact ⟨[], rfl, List.forall_mem_nil _⟩
  | cons a as ih =>
      rw [List.forall_mem_cons] at each
      obtain ⟨c, here, holds⟩ := each.1
      obtain ⟨cs, later, all⟩ := ih each.2
      refine ⟨c :: cs, by rw [List.mapM_cons, here, later]; rfl, ?_⟩
      rw [List.forall_mem_cons]
      exact ⟨holds, all⟩

theorem rel_mapped (related : α → β → Prop) (others : γ → δ → Prop) (f : α → γ) (g : β → δ)
    (carries : ∀ a b, related a b → others (f a) (g b)) (x : Option α) (y : Option β) (same : Option.Rel related x y) :
    Option.Rel others (x.map f) (y.map g) := by
  cases same with
  | none => exact .none
  | some same => exact .some (carries _ _ same)

end

theorem paired_names {α β : Type} (pairs : List ((String × α) × (String × β))) (names : ∀ p ∈ pairs, p.1.1 = p.2.1) :
    (pairs.map Prod.snd).map Prod.fst = (pairs.map Prod.fst).map Prod.fst := by
  rw [List.map_map, List.map_map]
  exact List.map_congr_left fun p member => (names p member).symm

def Moved {α : Type} (sch : Schema) (related : Schema → α → α → Prop) (ms us : List (String × α)) : Prop :=
  ∃ (pairs : List ((String × α) × (String × α))) (added : List (String × α)), ms = pairs.map Prod.fst ∧
    us.Perm (pairs.map Prod.snd ++ added) ∧
    (∀ p ∈ pairs, p.1.1 = p.2.1 ∧ related (sch.under p.1.1) p.1.2 p.2.2) ∧ ∀ m ∈ added, ¬ sch.Defines m.1

section

variable {α : Type} (sch : Schema) (related : Schema → α → α → Prop) (ms us : List (String × α))
  (moved : Moved sch related ms us) (name : String) (defined : sch.Defines name)
include moved

theorem moved_kept (a : α) (member : (name, a) ∈ ms) : ∃ b, (name, b) ∈ us ∧ related (sch.under name) a b := by
  obtain ⟨pairs, added, rfl, order, each, _⟩ := moved
  obtain ⟨p, inside, same⟩ := List.mem_map.mp member
  obtain ⟨named, alike⟩ := each p inside
  rw [same] at named alike
  have place : p.2 = (name, p.2.2) := Prod.ext named.symm rfl
  exact ⟨p.2.2, order.mem_iff.mpr (List.mem_append_left _ (List.mem_map.mpr ⟨p, inside, place⟩)), alike⟩

include defined

theorem moved_from (b : α) (member : (name, b) ∈ us) : ∃ a, (name, a) ∈ ms ∧ related (sch.under name) a b := by
  obtain ⟨pairs, added, rfl, order, each, new⟩ := moved
  rcases List.mem_append.mp (order.mem_iff.mp member) with kept | other
  · obtain ⟨p, inside, same⟩ := List.mem_map.mp kept
    obtain ⟨named, alike⟩ := each p inside
    rw [same] at named alike
    have place : p.1 = (name, p.1.2) := Prod.ext named rfl
    rw [named] at alike
    exact ⟨p.1.2, List.mem_map.mpr ⟨p, inside, place⟩, alike⟩
  · exact absurd defined (new _ other)

theorem moved_count : (us.map Prod.fst).count name = (ms.map Prod.fst).count name := by
  obtain ⟨pairs, added, rfl, order, each, new⟩ := moved
  have same := paired_names pairs fun p member => (each p member).1
  have absent : name ∉ added.map Prod.fst := by
    intro listed
    obtain ⟨m, member, rfl⟩ := List.mem_map.mp listed
    exact new m member defined
  rw [(order.map Prod.fst).count_eq, List.map_append, List.count_append, same, List.count_eq_zero_of_not_mem absent,
    Nat.add_zero]

end

theorem entries_moved {α : Type} (f : Tree → Option α) (related : Schema → α → α → Prop) (sch : Schema)
    (pairs : List ((List Char × Tree) × (List Char × Tree))) (added ms : List (List Char × Tree))
    (names : ∀ p ∈ pairs, p.1.1 = p.2.1)
    (each : ∀ p ∈ pairs, Option.Rel (related (sch.atName p.1.1)) (f p.1.2) (f p.2.2))
    (new : ∀ m ∈ added, (∃ k, name? m.1 = some k ∧ ¬ sch.Defines k) ∧ ∃ a, f m.2 = some a)
    (order : ms.Perm (pairs.map Prod.snd ++ added)) :
    Option.Rel (Moved sch related) ((pairs.map Prod.fst).mapM (Tree.pair? f)) (ms.mapM (Tree.pair? f)) := by
  have entries : ∀ p ∈ pairs, Option.Rel (fun a b => a.1 = b.1 ∧ related (sch.under a.1) a.2 b.2)
      (Tree.pair? f p.1) (Tree.pair? f p.2) := by
    intro p member
    have values := each p member
    rw [Tree.pair?, Tree.pair?, ← names p member]
    cases named : name? p.1.1 with
    | none => exact .none
    | some k =>
        rw [sch.at_name p.1.1 k named] at values
        simp only [Option.bind_some]
        generalize f p.1.2 = a at values
        generalize f p.2.2 = b at values
        cases values with
        | none => exact .none
        | some pair => exact .some ⟨rfl, pair⟩
  obtain ⟨others, read, strange⟩ := all_mapped (Tree.pair? f) (fun m => ¬ sch.Defines m.1) added fun m member => by
    obtain ⟨⟨k, named, new⟩, a, found⟩ := new m member
    exact ⟨(k, a), by rw [Tree.pair?, named, found]; rfl, new⟩
  have whole := mapped_pairs _ _ _ pairs entries
  have moved := perm_mapped (Tree.pair? f) ms _ order
  rw [List.mapM_append, read] at moved
  generalize (pairs.map Prod.fst).mapM (Tree.pair? f) = x at whole
  generalize (pairs.map Prod.snd).mapM (Tree.pair? f) = y at whole moved
  generalize ms.mapM (Tree.pair? f) = z at moved
  cases whole with
  | none =>
      cases moved
      exact .none
  | some rest =>
      obtain ⟨qs, rfl, rfl, all⟩ := rest
      cases moved with
      | some same => exact .some ⟨qs, others, rfl, same, all, strange⟩

inductive Resembles : Schema → Value → Value → Prop where
  | scalar (sch : Schema) (x : Scalar) : Resembles sch (.scalar x) (.scalar x)
  | list (sch : Schema) (pairs : List (Value × Value))
      (each : ∀ i p, pairs[i]? = some p → Resembles (sch.place i) p.1 p.2) :
      Resembles sch (.list (pairs.map Prod.fst)) (.list (pairs.map Prod.snd))
  | object (sch : Schema) (pairs : List ((String × Value) × (String × Value))) (added ms : List (String × Value))
      (once : ((pairs.map Prod.fst).map Prod.fst).Nodup) (names : ∀ p ∈ pairs, p.1.1 = p.2.1)
      (each : ∀ p ∈ pairs, Resembles (sch.under p.1.1) p.1.2 p.2.2) (new : ∀ m ∈ added, ¬ sch.Defines m.1)
      (order : ms.Perm (pairs.map Prod.snd ++ added)) :
      Resembles sch (.object (pairs.map Prod.fst)) (.object ms)

theorem entry_names {α : Type} (f : Tree → Option α) (ms : List (List Char × Tree)) (es : List (String × α))
    (read : ms.mapM (Tree.pair? f) = some es) : es.map Prod.fst = ms.filterMap fun m => name? m.1 := by
  induction ms generalizing es with
  | nil =>
      cases read
      rfl
  | cons m ms ih =>
      rw [List.mapM_cons] at read
      obtain ⟨e, here, read⟩ := Option.bind_eq_some_iff.mp read
      obtain ⟨later, others, same⟩ := Option.bind_eq_some_iff.mp read
      cases same
      obtain ⟨k, named, value⟩ := Option.bind_eq_some_iff.mp here
      obtain ⟨a, _, rfl⟩ := Option.map_eq_some_iff.mp value
      rw [List.map_cons, List.filterMap_cons, named, ih later others]

theorem rearranged_values (sch : Schema) (d : Nat) (t u : Tree) (moved : Rearranged sch d t u) (once : ¬ t.Repeats) :
    Option.Rel (Resembles sch) (t.value? d) (u.value? d) := by
  induction moved with
  | leaf sch d lexeme =>
      simp only [Tree.value?]
      cases scalar? lexeme with
      | none => exact .none
      | some x => exact .some (.scalar sch x)
  | list sch d pairs _ ih =>
      cases d with
      | zero => exact .none
      | succ d =>
          have values := mapped_places (fun i => Resembles (sch.place i)) (Tree.value? d) (Tree.value? d) pairs
            fun i p found => ih i p found fun inside =>
              once (.element _ _ (List.mem_map_of_mem (List.mem_of_getElem? found)) inside)
          refine rel_mapped _ _ _ _ ?_ _ _ values
          rintro _ _ ⟨qs, rfl, rfl, all⟩
          exact .list sch qs all
  | object sch d pairs added ms names _ new order ih =>
      cases d with
      | zero => exact .none
      | succ d =>
          have values := entries_moved (Tree.value? d) Resembles sch pairs added ms names
            (fun p member => ih p member fun inside => once (.member _ _ (List.mem_map_of_mem member) inside))
            (fun m member => ⟨(new m member).new, (new m member).readable⟩) order
          rw [Tree.value?, Tree.value?]
          cases read : (pairs.map Prod.fst).mapM (Tree.pair? (Tree.value? d)) with
          | none =>
              rw [read] at values
              generalize ms.mapM (Tree.pair? (Tree.value? d)) = y at values
              cases values
              exact .none
          | some es =>
              have distinct : (es.map Prod.fst).Nodup := by
                rw [entry_names _ _ _ read]
                by_contra twice
                exact once (.here _ twice)
              rw [read] at values
              generalize ms.mapM (Tree.pair? (Tree.value? d)) = y at values
              cases values with
              | some rest =>
                  obtain ⟨qs, others, rfl, same, all, strange⟩ := rest
                  exact .some (.object sch qs others _ distinct (fun q member => (all q member).1)
                    (fun q member => (all q member).2) strange same)

end DarkDrop.Json
