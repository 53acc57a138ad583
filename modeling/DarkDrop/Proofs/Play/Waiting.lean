import DarkDrop.Proofs.Play.RequestLedger

namespace DarkDrop
open Wire

namespace Run

def next? (r : Run) (i : Input) : Option Run :=
  match r.take .never i with
  | (next, .going) => some next
  | _ => none

def waiting? (r : Run) (is : List Input) : Option Run :=
  match r.start .never with
  | (first, .going) => is.foldlM next? first
  | _ => none

theorem next_taken (r next : Run) (i : Input) (goes : r.next? i = some next) :
    r.take .never i = (next, .going) := by
  rw [next?] at goes
  split at goes
  · rename_i same
    rw [same, Option.some.inj goes]
  · cases goes

theorem waiting_started (r : Run) (is : List Input) :
    r.waiting? is = is.foldlM next? (r.start .never).1 := by
  rw [waiting?, started r]

theorem waiting_snoc (r next : Run) (is : List Input) (i : Input)
    (waits : r.waiting? (is ++ [i]) = some next) :
    ∃ w, r.waiting? is = some w ∧ w.next? i = some next := by
  rw [waiting_started, List.foldlM_append] at waits
  rw [waiting_started]
  obtain ⟨w, reached, last⟩ := Option.bind_eq_some_iff.mp waits
  exact ⟨w, reached, by simpa using last⟩

theorem turns_append (r w : Run) (is more : List Input) (waits : is.foldlM next? r = some w) :
    r.turns (is ++ more) = r.turns is ++ w.turns more := by
  induction is generalizing r with
  | nil =>
      cases waits
      rfl
  | cons i is ih =>
      rw [List.foldlM_cons] at waits
      obtain ⟨next, goes, rest⟩ := Option.bind_eq_some_iff.mp waits
      have taken := next_taken r next i goes
      rw [List.cons_append, (turns_going r next i (is ++ more) taken).1,
        (turns_going r next i is taken).1, ih next rest, List.cons_append]

theorem handled_snoc (r w : Run) (is : List Input) (i : Input) (waits : r.waiting? is = some w) :
    r.handled (is ++ [i]) = r.handled is ++ [(w, i)] := by
  rw [waiting_started] at waits
  rw [handled_turns, handled_turns, turns_append _ w is [i] waits, turns]
  split <;> rfl

theorem handled_inputs (r w : Run) (is : List Input) (waits : r.waiting? is = some w) :
    (r.handled is).map Prod.snd = is := by
  induction is using List.reverseRecOn generalizing w with
  | nil => rw [handled_turns]; rfl
  | append_singleton is i ih =>
      obtain ⟨before, reached, _⟩ := waiting_snoc r w is i waits
      rw [handled_snoc r before is i reached, List.map_append, ih before reached]
      rfl

-- What holds at the start and is kept from one wait to the next holds at every
-- wait, with everything that was handled by then.
theorem waiting_holds (P : List (Run × Input) → Run → Prop) (r : Run)
    (first : P [] (r.start .never).1)
    (kept : ∀ ts w i next, P ts w → w.next? i = some next → P (ts ++ [(w, i)]) next)
    (is : List Input) (w : Run) (waits : r.waiting? is = some w) : P (r.handled is) w := by
  induction is using List.reverseRecOn generalizing w with
  | nil =>
      rw [waiting_started] at waits
      cases waits
      rw [handled_turns]
      exact first
  | append_singleton is i ih =>
      obtain ⟨before, reached, goes⟩ := waiting_snoc r w is i waits
      rw [handled_snoc r before is i reached]
      exact kept _ before i w (ih before reached) goes

end Run
end DarkDrop
