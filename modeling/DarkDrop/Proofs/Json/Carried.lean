import DarkDrop.Proofs.Json.RecordWays

namespace DarkDrop.Json

section

variable {σ τ : Type} (related : σ → τ → Prop) (good : σ → Prop)

theorem members_carried (step : σ → String → Reader σ) (other : τ → String → Reader τ)
    (each : ∀ x next k s r, (step x k).run s = .ok (next, r) → good next → good x ∧
      ∀ y, related x y → ∃ z, (other y k).run s = .ok (z, r) ∧ related next z)
    (x last : σ) (first : Bool) (s r : List Char)
    (read : members kept step x first s = .ok (last, r)) (sound : good last) :
    good x ∧ ∀ y, related x y → ∃ z, members kept other y first s = .ok (z, r) ∧ related last z := by
  fun_induction members kept step x first s with
  | case1 => cases read
  | case2 x first s left next =>
      cases read
      exact ⟨sound, fun y start => ⟨y, members_closed kept other y first s _ next, start⟩⟩
  | case3 => cases read
  | case4 x first s k text next x' rest taken _ _ ih =>
      obtain ⟨middle, later⟩ := ih read
      obtain ⟨before, here⟩ := each x x' k text rest taken middle
      refine ⟨before, fun y start => ?_⟩
      obtain ⟨y', read', related'⟩ := here y start
      obtain ⟨z, others, ended⟩ := later y' related'
      exact ⟨z, members_step other y y' z first k s text rest r next read' others, ended⟩

def Carries (fs : List (Field σ)) (gs : List (Field τ)) : Prop :=
  ∀ x y last first s r, related x y → good last → Record.readInOrder fs x first s = .ok (last, r) →
    ∃ z, Record.readInOrder gs y first s = .ok (z, r) ∧ related last z

theorem carries_end : Carries related good [] [] := by
  intro x y last first s r start _ read
  obtain ⟨rest, ended, same⟩ := map_eq_ok read
  cases same
  exact ⟨y, by rw [Record.readInOrder, ended]; rfl, start⟩

-- Only what the last field is filled with is sure to stay.
theorem carries_field (f : Field σ) (g : Field τ) (fs : List (Field σ)) (gs : List (Field τ))
    (each : ∀ x y next s r, related x y → (fs = [] → good next) → (f.read x).run s = .ok (next, r) →
      ∃ z, (g.read y).run s = .ok (z, r) ∧ related next z)
    (later : Carries related good fs gs) : Carries related good (f :: fs) (g :: gs) := by
  intro x y last first s r start sound read
  rw [Record.readInOrder] at read
  split at read
  · cases read
  · rename_i next
    cases read
    exact ⟨y, by rw [Record.readInOrder, next], start⟩
  · rename_i text next
    split at read
    · cases read
    · rename_i x' rest taken
      have stays : fs = [] → good x' := by
        rintro rfl
        obtain ⟨_, _, same⟩ := map_eq_ok read
        cases same
        exact sound
      obtain ⟨y', here, middle⟩ := each x y x' text rest start stays taken
      obtain ⟨z, others, ended⟩ := later x' y' last false rest r middle sound read
      refine ⟨z, ?_, ended⟩
      rw [Record.readInOrder, next]
      simp only [here]
      exact others

theorem record_carried {α β : Type} (rc : Record σ α) (other : Record τ β) (like : α → β → Prop)
    (listed : Carries related good rc.fields other.fields)
    (each : ∀ x next k s r, (rc.readMember x k).run s = .ok (next, r) → good next → good x ∧
      ∀ y, related x y → ∃ z, (other.readMember y k).run s = .ok (z, r) ∧ related next z)
    (blank : related rc.blank other.blank)
    (complete : ∀ x y a, related x y → rc.complete x = .ok a → ∃ b, other.complete y = .ok b ∧ like a b)
    (s r : List Char) (a : α) (read : rc.form.read.run s = .ok (a, r))
    (sound : ∀ x, rc.complete x = .ok a → good x) :
    ∃ b, other.form.read.run s = .ok (b, r) ∧ like a b := by
  obtain ⟨text, opened⟩ | ⟨text, opened⟩ | plain := bracket_cases s
  · change bracketed _ _ _ s = _ at read
    rw [bracketed_list _ _ _ s text opened, complete_ok] at read
    obtain ⟨x, read, whole⟩ := read
    obtain ⟨y, read', ended⟩ := listed _ _ x true text r blank (sound x whole) read
    obtain ⟨b, whole', same⟩ := complete x y a ended whole
    refine ⟨b, ?_, same⟩
    change bracketed _ _ _ s = _
    rw [bracketed_list _ _ _ s text opened, complete_ok]
    exact ⟨y, read', whole'⟩
  · change bracketed _ _ _ s = _ at read
    rw [bracketed_object _ _ _ s text opened, complete_ok] at read
    obtain ⟨x, read, whole⟩ := read
    have carried := members_carried related good rc.readMember other.readMember each rc.blank x true text r
      read (sound x whole)
    obtain ⟨y, read', ended⟩ := carried.2 other.blank blank
    obtain ⟨b, whole', same⟩ := complete x y a ended whole
    refine ⟨b, ?_, same⟩
    change bracketed _ _ _ s = _
    rw [bracketed_object _ _ _ s text opened, complete_ok]
    exact ⟨y, read', whole'⟩
  · change bracketed _ _ _ s = _ at read
    rw [bracketed_plain _ _ _ s plain] at read
    split at read
    · cases read
    · cases read

end

theorem optional_carried {α β : Type} (form : Form α) (other : Form β) (related : α → β → Prop)
    (good : α → Prop)
    (carried : ∀ s r a, form.read.run s = .ok (a, r) → good a →
      ∃ b, other.read.run s = .ok (b, r) ∧ related a b)
    (s r : List Char) (a : Option α) (read : form.optional.read.run s = .ok (a, r))
    (each : ∀ x, a = some x → good x) :
    ∃ b, other.optional.read.run s = .ok (b, r) ∧ Option.Rel related a b := by
  by_cases letter : ∃ text, skipSpace s = 'n' :: text
  · obtain ⟨text, letter⟩ := letter
    rw [optional_null form s text letter] at read
    obtain ⟨rest, word, same⟩ := map_eq_ok read
    cases same
    exact ⟨none, by rw [optional_null other s text letter, word]; rfl, .none⟩
  · have solid : ∀ text, skipSpace s ≠ 'n' :: text := fun text here => letter ⟨text, here⟩
    rw [optional_other form s solid, map_ok] at read
    obtain ⟨x, read, rfl⟩ := read
    obtain ⟨y, same, pair⟩ := carried _ r x read (each x rfl)
    exact ⟨some y, by rw [optional_other other s solid, map_ok]; exact ⟨y, same, rfl⟩, .some pair⟩

end DarkDrop.Json
