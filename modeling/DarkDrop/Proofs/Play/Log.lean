import DarkDrop.Proofs.Play.Turns

namespace DarkDrop

namespace Run

def behind (l : List Deed) (r : Run) : Run := { r with log := l ++ r.log }

theorem did_behind (l : List Deed) (r : Run) (d : Deed) : (behind l r).did d = behind l (r.did d) := by
  simp [did, behind]

theorem ask_behind (l : List Deed) (r : Run) (os : List Order) :
    (behind l r).ask os = behind l (r.ask os) := by
  simp [ask, behind]

theorem perform_behind (l : List Deed) (r : Run) (e : Effect) :
    (behind l r).perform e = (behind l (r.perform e).1, (r.perform e).2) := by
  simp [perform, ask, behind]

theorem step_behind (l : List Deed) (r : Run) (e : Effect) :
    (behind l r).step e = (behind l (r.step e).1, (r.step e).2) := by
  have same : (behind l r).client = r.client := rfl
  rw [step, step, same]
  cases e.deed? r.client with
  | some d => simp only [did_behind]
  | none => exact perform_behind l r e

theorem drain_behind (l : List Deed) (r : Run) (es : List Effect) :
    (behind l r).drain .never es = (behind l (r.drain .never es).1, (r.drain .never es).2) := by
  fun_induction steps r es with
  | case1 r => rw [drain, drain]
  | case2 r e es ih =>
      by_cases last : e = .quit
      · subst last
        rw [drain_quit, drain_quit]
      · rw [drain_step r e es last, drain_step _ e es last, step_behind]
        exact ih

theorem hear_all_behind (l : List Deed) (r : Run) (ss : List Signal) :
    (behind l r).hearAll .never ss = (behind l (r.hearAll .never ss).1, (r.hearAll .never ss).2) := by
  induction ss generalizing r with
  | nil => rfl
  | cons s ss ih =>
      have heard : drain .never { behind l r with client := (r.client.hear s).1 } (r.client.hear s).2 = _ :=
        drain_behind l { r with client := (r.client.hear s).1 } (r.client.hear s).2
      have same : (behind l r).client = r.client := rfl
      simp only [hearAll, same, heard]
      generalize drain .never _ _ = drained
      obtain ⟨next, progress⟩ := drained
      cases progress with
      | going => exact ih next
      | ended | failed => rfl

theorem command_behind (l : List Deed) (r : Run) (c : Command) :
    (behind l r).command .never c = (behind l (r.command .never c).1, (r.command .never c).2) :=
  drain_behind l { r with client := (r.client.command c).1 } (r.client.command c).2

theorem line_behind (l : List Deed) (r : Run) (text : String) :
    (behind l r).line .never text = (behind l (r.line .never text).1, (r.line .never text).2) := by
  have same : (behind l r).memory = r.memory := rfl
  simp only [line, same]
  split
  · exact command_behind l r _
  · split
    · rw [did_behind]
    · rfl

theorem report_behind (l : List Deed) (r : Run) (x : Report) :
    (behind l r).report .never x = (behind l (r.report .never x).1, (r.report .never x).2) := by
  have asked := ask_behind l r (r.connection.hear x).orders
  have same : (behind l r).connection = r.connection := rfl
  simp only [report, same, asked]
  exact hear_all_behind l { r.ask (r.connection.hear x).orders with
    connection := (r.connection.hear x).connection } _

theorem take_behind (l : List Deed) (r : Run) (i : Input) :
    (behind l r).take .never i = (behind l (r.take .never i).1, (r.take .never i).2) := by
  simp only [take, did_behind]
  cases i with
  | command c => exact command_behind l _ c
  | line text => exact line_behind l _ text
  | report x => exact report_behind l _ x
  | failure reason => rfl

-- A run never looks at its log, and only adds to it.
theorem take_relogged (r : Run) (l : List Deed) (i : Input) :
    take .never { r with log := l } i =
      ({ (r.take .never i).1 with log := l ++ (r.take .never i).1.since r }, (r.take .never i).2) := by
  have bare := take_behind r.log { r with log := [] } i
  have other := take_behind l { r with log := [] } i
  simp only [behind, List.append_nil] at bare other
  rw [other, bare, since, List.drop_left]

end Run
end DarkDrop
