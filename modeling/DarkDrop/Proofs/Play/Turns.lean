import DarkDrop.Proofs.Play.Drain

namespace DarkDrop

namespace Run

-- A typed line counts as the command it is read as.
def command? (r : Run) : Input → Option Command
  | .command c => some c
  | .line text => (TypedLine.read text.toList r.memory).command?
  | .report _ | .failure _ => none

def turns (r : Run) : List Input → List (Run × Input)
  | [] => []
  | i :: is => (r, i) :: match r.take .never i with
    | (next, .going) => next.turns is
    | _ => []

def handled (r : Run) (is : List Input) : List (Run × Input) :=
  match r.start .never with
  | (r, .going) => r.turns is
  | _ => []

theorem start_quiet (r : Run) :
    Quiet { r with client := r.client.start.1 } (r.start .never) r.client.start.1
      (steps { r with client := r.client.start.1 } r.client.start.2)
      (r.client.start.2.filterMap Effect.message?) := by
  apply calm_quiet
  rw [Client.start]
  split <;> simp [Effect.calm]

theorem started (r : Run) : r.start .never = ((r.start .never).1, .going) :=
  Prod.ext rfl (start_quiet r).going

theorem handled_turns (r : Run) (is : List Input) : r.handled is = (r.start .never).1.turns is := by
  rw [handled, started r]

theorem played (r : Run) (is : List Input) :
    r.play .never is = match (r.start .never).1.follow .never is with
      | (last, .failed reason) => (last, some reason)
      | (last, _) => (last.leave, none) := by
  have going := started r
  rw [play]
  generalize r.start .never = out at going ⊢
  obtain ⟨first, progress⟩ := out
  cases going
  rfl

theorem turns_going (r next : Run) (i : Input) (is : List Input)
    (taken : r.take .never i = (next, .going)) :
    r.turns (i :: is) = (r, i) :: next.turns is ∧ r.follow .never (i :: is) = next.follow .never is := by
  rw [turns, follow, taken]
  exact ⟨rfl, rfl⟩

theorem turns_stopped (r next : Run) (i : Input) (is : List Input) (progress : Progress)
    (taken : r.take .never i = (next, progress)) (stopped : progress ≠ .going) :
    r.turns (i :: is) = [(r, i)] ∧ r.follow .never (i :: is) = (next, progress) := by
  rw [turns, follow, taken]
  cases progress with
  | going => exact absurd rfl stopped
  | ended | failed => exact ⟨rfl, rfl⟩

theorem turns_hold (P : Run → Prop) (kept : ∀ r i, P r → P (r.take .never i).1) (r : Run)
    (holds : P r) (is : List Input) : ∀ t ∈ r.turns is, P t.1 := by
  induction is generalizing r with
  | nil => intro t member; cases member
  | cons i is ih =>
      intro t member
      have after := kept r i holds
      cases taken : r.take .never i with
      | mk next progress =>
          rw [taken] at after
          by_cases on : progress = .going
          · subst on
            rw [(turns_going r next i is taken).1] at member
            rcases List.mem_cons.mp member with rfl | later
            · exact holds
            · exact ih next after t later
          · rw [(turns_stopped r next i is progress taken on).1] at member
            rw [List.mem_singleton.mp member]
            exact holds

theorem command_taken (r : Run) (i : Input) (c : Command) (given : r.command? i = some c) :
    r.take .never i = (r.did (.took i)).command .never c := by
  cases i with
  | command d =>
      cases given
      rfl
  | line text =>
      have read : (TypedLine.read text.toList r.memory).command? = some c := given
      have same : (r.did (.took (.line text))).memory = r.memory := rfl
      change (r.did (.took (.line text))).line .never text = _
      simp only [line, same, read]
  | report x => cases given
  | failure reason => cases given

theorem refused_taken (r : Run) (i : Input) (c : Command) (given : r.command? i = some c)
    (off : r.client.accepts c = false) :
    ∃ text, r.take .never i =
      (((r.did (.took i)).did (.told text)).did (.shown r.client), .going) := by
  have answer : r.client.command c =
      (r.client, [.notify ("Not available on the " ++ r.client.screen.name ++ " screen."), .render]) := by
    rw [Client.command, off]
    rfl
  refine ⟨"Not available on the " ++ r.client.screen.name ++ " screen.", ?_⟩
  rw [command_taken r i c given, command]
  change drain .never { r.did (.took i) with client := (r.client.command c).1 } (r.client.command c).2 = _
  rw [answer, drain_step _ _ _ (by simp)]
  change drain .never _ [.render] = _
  rw [drain_step _ _ _ (by simp)]
  change drain .never _ [] = _
  rw [drain]
  rfl

theorem idle_line (r : Run) (text : String)
    (idle : (TypedLine.read text.toList r.memory).command? = none) :
    r.line .never text = (r, .going) ∨
      ∃ complaint, r.line .never text = (r.did (.complained complaint), .going) := by
  rw [line]
  simp only [idle]
  split
  · exact .inr ⟨_, rfl⟩
  · exact .inl rfl

end Run
end DarkDrop
