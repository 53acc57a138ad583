import DarkDrop.Proofs.Json.RecordWays

namespace DarkDrop.Json

theorem skip_space (n : Nat) (s : List Char) : (skipTo n).run (skipSpace s) = (skipTo n).run s := by
  cases n with
  | zero =>
    change bracketed _ _ _ (skipSpace s) = bracketed _ _ _ s
    rw [bracketed, space_skipped]
    rfl
  | succ n =>
    change bracketed _ _ _ (skipSpace s) = bracketed _ _ _ s
    rw [bracketed, space_skipped]
    rfl

theorem skip_opened (n : Nat) (s text : List Char) (bracket : skipSpace s = '[' :: text) :
    (skipTo (n + 1)).run s = (elements skipped (skipTo n) true text).map fun p => ((), p.2) :=
  bracketed_list _ _ _ s text bracket

theorem skip_keyed (n : Nat) (s text : List Char) (brace : skipSpace s = '{' :: text) :
    (skipTo (n + 1)).run s = members skipped (fun _ _ => afterColon (skipTo n)) () true text :=
  bracketed_object _ _ _ s text brace

theorem skip_plain (n : Nat) (s : List Char) (plain : Unbracketed s) :
    (skipTo n).run s = skipScalar (skipSpace s) := by
  cases n with
  | zero => exact bracketed_plain _ _ _ s plain
  | succ n => exact bracketed_plain _ _ _ s plain

def Skippable {α : Type} (rd : Reader α) : Prop := ∀ n, Skips n rd (skipTo n)

theorem deeper_skipped (n d : Nat) : Skips n (skipTo d) (skipTo n) := by
  induction n generalizing d with
  | zero =>
    intro s r u short read
    rw [List.length_eq_zero_iff.mp (Nat.le_zero.mp short), skip_plain d [] (fun _ => by simp [skipSpace])] at read
    cases read
  | succ n ih =>
    intro s r u short read
    have begun := length_skipSpace_le s
    obtain ⟨text, opened⟩ | ⟨text, opened⟩ | plain := bracket_cases s
    · rw [opened, List.length_cons] at begun
      cases d with
      | zero =>
          change bracketed _ _ _ s = _ at read
          rw [bracketed_list _ _ _ s text opened] at read
          cases read
      | succ d =>
          rw [skip_opened d s text opened] at read
          obtain ⟨⟨us, rest⟩, items, same⟩ := map_eq_ok read
          cases same
          obtain ⟨vs, passed⟩ := items_skipped n _ _ skipped skipped_spared (ih d) true text rest us
            ((elements_iff _ _ _ _ _ _).mp items) (by omega)
          rw [skip_opened n s text opened, passed]
          rfl
    · rw [opened, List.length_cons] at begun
      cases d with
      | zero =>
          change bracketed _ _ _ s = _ at read
          rw [bracketed_object _ _ _ s text opened] at read
          cases read
      | succ d =>
          rw [skip_keyed d s text opened] at read
          rw [skip_keyed n s text opened]
          exact members_skipped n _ skipped skipped_spared _
            (fun _ _ => colon_skipped n _ _ (ih d)) () u true text r read (by omega)
    · rw [skip_plain d s plain] at read
      rw [skip_plain (n + 1) s plain, read]

theorem skip_skippable : Skippable skip := fun n s r u short read =>
  deeper_skipped n s.length s r u short read

theorem map_skippable {α β : Type} (rd : Reader α) (f : α → β) (skippable : Skippable rd) :
    Skippable (rd.map f) :=
  fun n => map_skipped n rd _ f (skippable n)

theorem colon_skippable {α : Type} (rd : Reader α) (skippable : Skippable rd) (n : Nat) :
    Skips n (afterColon rd) (afterColon (skipTo n)) :=
  colon_skipped n rd _ (skippable n)

theorem any_skippable (d : Nat) : Skippable (any d) := by
  intro n s r w short read
  obtain ⟨v, written, _⟩ := (any_as_written d s r w).mp read
  exact depth_skipped n d s r v short written

theorem scalar_skippable {α : Type} (wanted : String) (accept : Scalar → Except Cause α) :
    Skippable (Form.scalar wanted accept).read := by
  intro n s r a short read
  change bracketed _ _ _ s = _ at read
  obtain ⟨text, opened⟩ | ⟨text, opened⟩ | plain := bracket_cases s
  · rw [bracketed_list _ _ _ s text opened] at read
    cases read
  · rw [bracketed_object _ _ _ s text opened] at read
    cases read
  · rw [bracketed_plain _ _ _ s plain] at read
    split at read
    · cases read
    · rename_i x rest found
      split at read
      · cases read
      · cases read
        exact plain_skipped n s r x plain found

theorem optional_skippable {α : Type} (form : Form α) (skippable : Skippable form.read) :
    Skippable form.optional.read := by
  intro n s r a short read
  by_cases letter : ∃ text, skipSpace s = 'n' :: text
  · obtain ⟨text, letter⟩ := letter
    rw [optional_null form s text letter] at read
    obtain ⟨rest, word, same⟩ := map_eq_ok read
    cases same
    have plain : Unbracketed s := fun other => by simp [letter]
    refine plain_skipped n s r .null plain ?_
    rw [letter, scalar, if_pos rfl, word]
    rfl
  · have solid : ∀ text, skipSpace s ≠ 'n' :: text := fun text here => letter ⟨text, here⟩
    rw [optional_other form s solid] at read
    have within := Nat.le_trans (length_skipSpace_le s) short
    rw [← skip_space]
    exact map_skippable form.read some skippable n _ r a within read

section

variable {σ α : Type} (rc : Record σ α)

theorem list_end_skipped (n : Nat) (first : Bool) (s r : List Char)
    (next : nextElement kept first s = .ok (false, r)) :
    ∃ us, elements skipped (skipTo n) first s = .ok (us, r) :=
  ⟨[], elements_closed skipped _ first s r (kept_spared.element first false s r next)⟩

theorem order_skippable (fs : List (Field σ)) (skippable : ∀ f ∈ fs, ∀ draft, Skippable (f.read draft))
    (n : Nat) (draft last : σ) (first : Bool) (s r : List Char) (short : s.length ≤ n)
    (read : Record.readInOrder fs draft first s = .ok (last, r)) :
    ∃ us, elements skipped (skipTo n) first s = .ok (us, r) := by
  induction fs generalizing draft first s with
  | nil =>
    obtain ⟨rest, ended, same⟩ := map_eq_ok read
    cases same
    exact list_end_skipped n first s r ((element_ended first s r).mpr ((list_ended s r).mp ended))
  | cons f fs ih =>
    rw [Record.readInOrder] at read
    split at read
    · cases read
    · rename_i rest next
      cases read
      exact list_end_skipped n first s r next
    · rename_i text next
      split at read
      · cases read
      · rename_i after left taken
        have begun := nextElement_le next
        have shorter := (f.read draft).shorter taken
        have passed := skippable f (by simp) draft n text left after (by omega) taken
        obtain ⟨us, later⟩ := ih (fun g member => skippable g (by simp [member])) after false left
          (by omega) read
        exact ⟨() :: us, elements_step _ first s text left r () us
          (kept_spared.element first true s text next) passed later⟩

theorem member_skippable (skippable : ∀ f ∈ rc.fields, ∀ draft, Skippable (f.read draft)) (n : Nat)
    (draft : σ) (k : String) : Skips n (rc.readMember draft k) (afterColon (skipTo n)) := by
  intro s r next short read
  cases known : rc.field? k with
  | none =>
      obtain ⟨_, passed⟩ := (member_unknown rc draft next k s r known).mp read
      exact colon_skippable skip skip_skippable n s r () short passed
  | some f =>
      obtain ⟨_, passed⟩ := (member_known rc draft next k s r f known).mp read
      exact colon_skippable _ (skippable f (field_named rc k f known).1 draft) n s r next short passed

theorem record_skippable (skippable : ∀ f ∈ rc.fields, ∀ draft, Skippable (f.read draft)) :
    Skippable rc.form.read := by
  intro n s r a short read
  change bracketed _ _ _ s = _ at read
  have begun := length_skipSpace_le s
  obtain ⟨text, opened⟩ | ⟨text, opened⟩ | plain := bracket_cases s
  · rw [bracketed_list _ _ _ s text opened, complete_ok] at read
    obtain ⟨draft, read, _⟩ := read
    rw [opened, List.length_cons] at begun
    cases n with
    | zero => omega
    | succ n =>
        obtain ⟨us, passed⟩ := order_skippable rc.fields skippable n rc.blank draft true text r (by omega) read
        rw [skip_opened n s text opened, passed]
        rfl
  · rw [bracketed_object _ _ _ s text opened, complete_ok] at read
    obtain ⟨draft, read, _⟩ := read
    rw [opened, List.length_cons] at begun
    cases n with
    | zero => omega
    | succ n =>
        rw [skip_keyed n s text opened]
        exact members_skipped n _ kept kept_spared _ (fun draft k => member_skippable rc skippable n draft k)
          rc.blank draft true text r read (by omega)
  · rw [bracketed_plain _ _ _ s plain] at read
    split at read
    · cases read
    · cases read

end

end DarkDrop.Json
