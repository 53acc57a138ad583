import DarkDrop.Proofs.Json.Outline
import Mathlib.Data.List.Nodup

namespace DarkDrop.Json

def Given {α : Type} (ms : List (String × Option Value)) (name : String) (shows : Value → α → Prop) :
    Option α → Prop
  | none => name ∉ ms.map Prod.fst ∨ (name, some (.scalar .null)) ∈ ms
  | some a => ∃ v, (name, some v) ∈ ms ∧ v ≠ .scalar .null ∧ shows v a

theorem alone {α : Type} (name : String) (a b : α) (ms : List (String × α))
    (once : (ms.map Prod.fst).count name ≤ 1) (here : (name, a) ∈ ms) (there : (name, b) ∈ ms) : a = b := by
  induction ms with
  | nil => cases here
  | cons m ms ih =>
      have more (c : α) (later : (name, c) ∈ ms) : 0 < (ms.map Prod.fst).count name :=
        List.count_pos_iff.mpr (List.mem_map.mpr ⟨_, later, rfl⟩)
      rw [List.map_cons, List.count_cons] at once
      rcases List.mem_cons.mp here with rfl | first
      · rcases List.mem_cons.mp there with same | second
        · exact (Prod.mk.inj same).2.symm
        · have := more b second
          simp at once
          omega
      · rcases List.mem_cons.mp there with rfl | second
        · have := more a first
          simp at once
          omega
        · exact ih (by omega) first second

theorem given_alone {α : Type} (ms : List (String × Option Value)) (name : String) (shows : Value → α → Prop)
    (once : (ms.map Prod.fst).count name ≤ 1) (function : ∀ v a b, shows v a → shows v b → a = b)
    (x y : Option α) (here : Given ms name shows x) (there : Given ms name shows y) : x = y := by
  have apart (v : Value) (given : (name, some v) ∈ ms) (present : v ≠ .scalar .null) :
      ¬ Given ms name shows none := by
    rintro (absent | null)
    · exact absent (List.mem_map.mpr ⟨_, given, rfl⟩)
    · cases alone name _ _ ms once given null
      exact present rfl
  cases x with
  | none =>
      cases y with
      | none => rfl
      | some b =>
          obtain ⟨v, given, present, _⟩ := there
          exact absurd here (apart v given present)
  | some a =>
      obtain ⟨v, given, present, shown⟩ := here
      cases y with
      | none => exact absurd there (apart v given present)
      | some b =>
          obtain ⟨w, given', _, shown'⟩ := there
          cases alone name _ _ ms once given given'
          rw [function v a b shown shown']

theorem given_kept {α : Type} (ms : List (String × Option Value)) (name : String) (shows : Value → α → Prop)
    (once : (ms.map Prod.fst).count name ≤ 1) (x : Option α) (given : Given ms name shows x) (o : Option Value)
    (member : (name, o) ∈ ms) :
    ∃ v, o = some v ∧ (v = .scalar .null ∨ ∃ a, x = some a ∧ shows v a) := by
  cases x with
  | none =>
      rcases given with absent | null
      · exact absurd (List.mem_map.mpr ⟨_, member, rfl⟩) absent
      · exact ⟨_, alone name _ _ ms once member null, .inl rfl⟩
  | some a =>
      obtain ⟨v, here, _, shown⟩ := given
      exact ⟨v, alone name _ _ ms once member here, .inr ⟨a, rfl, shown⟩⟩

section

variable {σ α β : Type} (rc : Record σ α) (name : String) (ms : List (String × Option Value)) (draft : σ)
  (known : (rc.field? name).isSome) (gathers : Gathers rc rc.blank ms draft)
include known gathers

theorem gathered_once : (ms.map Prod.fst).count name ≤ 1 := by
  rw [← fillings_count rc name known ms gathers.kept]
  exact List.nodup_iff_count_le_one.mp gathers.once name

theorem gathered_field (get : σ → Option β) (form : Form β) (holds : rc.Holds name get form) :
    (name ∉ ms.map Prod.fst ∧ get draft = get rc.blank) ∨
      ∃ v b, (name, some v) ∈ ms ∧ form.ofValue v.sorted = .ok b ∧ get draft = some b := by
  by_cases present : name ∈ (fillings rc ms).map Prod.fst
  · obtain ⟨⟨_, w⟩, member, rfl⟩ := List.mem_map.mp present
    obtain ⟨_, v, given, rfl⟩ := (filling_iff rc _ w ms).mp member
    obtain ⟨b, value, here⟩ := takes_held rc _ get form holds _ draft _ gathers.taken gathers.once _ member
    exact .inr ⟨v, b, given, value, here⟩
  · refine .inl ⟨fun listed => ?_, takes_kept rc name get form holds _ draft _ gathers.taken present⟩
    obtain ⟨⟨_, o⟩, member, rfl⟩ := List.mem_map.mp listed
    obtain ⟨v, rfl⟩ := Option.isSome_iff_exists.mp (gathers.kept _ member known)
    exact present (List.mem_map.mpr ⟨_, (filling_iff rc _ _ ms).mpr ⟨known, v, member, rfl⟩, rfl⟩)

theorem gathered_optional (get : σ → Option (Option β)) (form : Form β)
    (holds : rc.Holds name get form.optional) (blank : get rc.blank = none) :
    Given ms name (fun v b => form.ofValue v.sorted = .ok b) (get draft).join := by
  obtain ⟨absent, none⟩ | ⟨v, b, given, value, here⟩ :=
    gathered_field rc name ms draft known gathers get form.optional holds
  · rw [none, blank]
    exact .inl absent
  · rw [here, Option.join_some]
    by_cases null : v = .scalar .null
    · subst null
      cases value
      exact .inr given
    · rw [optional_present form v.sorted fun same => null ((sorted_null v).mp same)] at value
      obtain ⟨x, inside, rfl⟩ := map_eq_ok value
      exact ⟨v, given, null, inside⟩

end

end DarkDrop.Json
