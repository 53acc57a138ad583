import DarkDrop.Proofs.Play.Backlog
import DarkDrop.Proofs.Play.Waiting

namespace DarkDrop

def Deed.input? : Deed → Option Input
  | .took i => some i
  | _ => none

namespace Run

def inputs (r : Run) : List Input := r.log.filterMap Deed.input?

-- What nothing on the way from one input to the next breaks.
structure Lasting (P : Run → Prop) : Prop where
  client : ∀ (r : Run) (c : Client), P r → P { r with client := c }
  complained : ∀ (r : Run) (text : String), P r → P (r.did (.complained text))
  step : ∀ (r : Run) (e : Effect), P r → P (r.step e).1
  heard : ∀ (r : Run) (x : Report), P (r.did (.took (.report x))) → P (r.hearing x)

section

variable (P : Run → Prop) (kept : Lasting P) (r : Run)
include kept

theorem drain_kept (es : List Effect) (holds : P r) : P (r.drain .never es).1 := by
  fun_induction steps r es with
  | case1 r =>
      rw [drain]
      exact holds
  | case2 r e es ih =>
      by_cases last : e = .quit
      · subst last
        rw [drain_quit]
        exact holds
      · rw [drain_step r e es last]
        exact ih (kept.step r e holds)

theorem hear_all_kept (ss : List Signal) (holds : P r) : P (r.hearAll .never ss).1 := by
  induction ss generalizing r with
  | nil => exact holds
  | cons s ss ih =>
      have now := drain_kept P kept { r with client := (r.client.hear s).1 } (r.client.hear s).2
        (kept.client r _ holds)
      rw [hearAll]
      generalize drain .never _ _ = drained at now ⊢
      obtain ⟨next, progress⟩ := drained
      cases progress with
      | going => exact ih next now
      | ended | failed => exact now

theorem command_kept (c : Command) (holds : P r) : P (r.command .never c).1 :=
  drain_kept P kept _ _ (kept.client r _ holds)

theorem take_kept (i : Input) (holds : P (r.did (.took i))) : P (r.take .never i).1 := by
  cases given : r.command? i with
  | some c =>
      rw [command_taken r i c given]
      exact command_kept P kept _ c holds
  | none =>
      cases i with
      | command c => cases given
      | failure reason => exact holds
      | report x => exact hear_all_kept P kept (r.hearing x) _ (kept.heard r x holds)
      | line text =>
          change P ((r.did (.took (.line text))).line .never text).1
          rcases idle_line (r.did (.took (.line text))) text given with quiet | ⟨complaint, told⟩
          · rw [quiet]
            exact holds
          · rw [told]
            exact kept.complained _ complaint holds

end

-- Where a front end did not fail, it might as well never fail.
section

variable (refusal : Refusal) (r : Run)

def Well (out : Run × Progress) : Prop := ∀ reason, out.2 ≠ .failed reason

theorem well_going : Well (r, .going) := fun _ failed => by cases failed

theorem well_ended : Well (r, .ended) := fun _ failed => by cases failed

theorem drain_unrefused (es : List Effect) (well : Well (r.drain refusal es)) :
    r.drain refusal es = r.drain .never es := by
  fun_induction drain refusal r es with
  | case1 r => rw [drain]
  | case2 r e es d shown reason fails => exact absurd rfl (well reason)
  | case3 r e es d shown works ih =>
      rw [ih well, drain.eq_def .never r (e :: es)]
      simp only [shown, Refusal.never]
  | case4 r es unshown => rw [drain_quit]
  | case5 r e es unshown stays ih =>
      rw [ih well, drain_step r e es stays, step]
      simp only [unshown]

theorem hear_all_unrefused (ss : List Signal) (well : Well (r.hearAll refusal ss)) :
    r.hearAll refusal ss = r.hearAll .never ss := by
  induction ss generalizing r with
  | nil => rfl
  | cons s ss ih =>
      rw [hearAll] at well ⊢
      have same := drain_unrefused refusal { r with client := (r.client.hear s).1 } (r.client.hear s).2
      rw [hearAll]
      cases drained : drain refusal { r with client := (r.client.hear s).1 } (r.client.hear s).2 with
      | mk next progress =>
          rw [drained] at well same
          cases progress with
          | going =>
              rw [← same (well_going next)]
              exact ih next well
          | ended => rw [← same (well_ended next)]
          | failed reason => exact absurd rfl (well reason)

theorem take_unrefused (i : Input) (well : Well (r.take refusal i)) :
    r.take refusal i = r.take .never i := by
  cases i with
  | command c => exact drain_unrefused refusal _ _ well
  | report x => exact hear_all_unrefused refusal _ _ well
  | failure reason => rfl
  | line text =>
      simp only [take, line] at well ⊢
      split
      · rename_i c read
        simp only [read] at well
        exact drain_unrefused refusal _ _ well
      · rfl

theorem follow_unrefused (is : List Input) (well : Well (r.follow refusal is)) :
    r.follow refusal is = r.follow .never is := by
  induction is generalizing r with
  | nil => rfl
  | cons i is ih =>
      rw [follow] at well ⊢
      have same := take_unrefused refusal r i
      rw [follow]
      cases taken : r.take refusal i with
      | mk next progress =>
          rw [taken] at well same
          cases progress with
          | going =>
              rw [← same (well_going next)]
              exact ih next well
          | ended => rw [← same (well_ended next)]
          | failed reason => exact absurd rfl (well reason)

theorem play_unrefused (is : List Input) (last : Run) (ends : r.play refusal is = (last, none)) :
    r.play .never is = (last, none) := by
  rw [play] at ends ⊢
  have same := drain_unrefused refusal { r with client := r.client.start.1 } r.client.start.2
  have going := started r
  rw [start] at ends going ⊢
  cases opened : drain refusal { r with client := r.client.start.1 } r.client.start.2 with
  | mk first progress =>
      rw [opened] at ends same
      cases progress with
      | failed reason => cases congrArg Prod.snd ends
      | ended =>
          rw [← same (well_ended first)] at going
          cases congrArg Prod.snd going
      | going =>
          rw [← same (well_going first)]
          dsimp only at ends ⊢
          have follows := follow_unrefused refusal first is
          cases followed : first.follow refusal is with
          | mk next progress =>
              rw [followed] at ends follows
              cases progress with
              | failed reason => cases congrArg Prod.snd ends
              | going =>
                  rw [← follows (well_going next)]
                  exact ends
              | ended =>
                  rw [← follows (well_ended next)]
                  exact ends

end

theorem quit_taken (r : Run) (i : Input) (given : r.command? i = some .quit) :
    r.take .never i = (r.did (.took i), .ended) := by
  rw [command_taken r i .quit given, command]
  exact drain_quit _ []

theorem step_stays (r : Run) (e : Effect) : .quit ∉ (r.step e).2 := by
  intro quits
  rw [step] at quits
  split at quits
  · cases quits
  · cases performed_remarks r e _ quits

theorem drain_stays (r : Run) (es : List Effect) (stays : .quit ∉ es) : (r.drain .never es).2 = .going := by
  fun_induction steps r es with
  | case1 r => rw [drain]
  | case2 r e es ih =>
      have now : e ≠ .quit := fun same => stays (by simp [same])
      rw [drain_step r e es now]
      refine ih fun later => ?_
      rcases List.mem_append.mp later with old | new
      · exact stays (List.mem_cons_of_mem e old)
      · exact step_stays r e new

theorem command_stays (c : Client) (cmd : Command) (other : cmd ≠ .quit) : .quit ∉ (c.command cmd).2 := by
  rw [Client.command]
  split
  · cases cmd with
    | quit => exact absurd rfl other
    | login user =>
        rw [Client.execute]
        split <;> simp
    | _ => simp [Client.execute]
  · simp

theorem take_ended (r next : Run) (i : Input) (ended : r.take .never i = (next, .ended)) :
    r.command? i = some .quit ∧ next = r.did (.took i) := by
  cases given : r.command? i with
  | some c =>
      by_cases quits : c = .quit
      · subst quits
        rw [quit_taken r i given] at ended
        exact ⟨rfl, (congrArg Prod.fst ended).symm⟩
      · have going := drain_stays { r.did (.took i) with client := (r.client.command c).1 } _
          (command_stays r.client c quits)
        have run : drain .never { r.did (.took i) with client := (r.client.command c).1 }
            (r.client.command c).2 = (next, .ended) := (command_taken r i c given).symm.trans ended
        rw [run] at going
        cases going
  | none =>
      cases i with
      | command c => cases given
      | failure reason => cases congrArg Prod.snd ended
      | report x =>
          have going := (signals_quiet (r.hearing x) (r.connection.hear x).signals).going
          have run : (r.hearing x).hearAll .never (r.connection.hear x).signals = (next, .ended) := ended
          rw [run] at going
          cases going
      | line text =>
          have run : (r.did (.took (.line text))).line .never text = (next, .ended) := ended
          rcases idle_line (r.did (.took (.line text))) text given with quiet | ⟨complaint, told⟩
          · rw [quiet] at run
            cases congrArg Prod.snd run
          · rw [told] at run
            cases congrArg Prod.snd run

theorem follow_append (r w : Run) (is more : List Input) (waits : is.foldlM next? r = some w) :
    r.follow .never (is ++ more) = w.follow .never more := by
  induction is generalizing r with
  | nil =>
      cases waits
      rfl
  | cons i is ih =>
      rw [List.foldlM_cons] at waits
      obtain ⟨next, goes, rest⟩ := Option.bind_eq_some_iff.mp waits
      rw [List.cons_append, (turns_going r next i (is ++ more) (next_taken r next i goes)).2, ih next rest]

inductive Ends (r : Run) (is : List Input) : Run → Prop where
  | out (w : Run) (waits : is.foldlM next? r = some w) : Ends r is w
  | quit (before after : List Input) (i : Input) (w : Run) (inputs : is = before ++ i :: after)
      (waits : before.foldlM next? r = some w) (given : w.command? i = some .quit) :
      Ends r is (w.did (.took i))

theorem follow_ends (r last : Run) (is : List Input) (progress : Progress)
    (follows : r.follow .never is = (last, progress)) (well : ∀ reason, progress ≠ .failed reason) :
    Ends r is last := by
  induction is generalizing r with
  | nil =>
      cases follows
      exact .out _ rfl
  | cons i is ih =>
      cases taken : r.take .never i with
      | mk next after =>
          cases after with
          | failed reason =>
              rw [(turns_stopped r next i is _ taken nofun).2] at follows
              cases follows
              exact absurd rfl (well reason)
          | ended =>
              rw [(turns_stopped r next i is _ taken nofun).2] at follows
              cases follows
              obtain ⟨given, same⟩ := take_ended r _ i taken
              rw [same]
              exact .quit [] is i r rfl rfl given
          | going =>
              have goes : r.next? i = some next := by rw [next?, taken]
              rw [(turns_going r next i is taken).2] at follows
              cases ih next follows with
              | out _ waits => exact .out _ (by rw [List.foldlM_cons, goes]; exact waits)
              | quit before later j w inputs waits given =>
                  exact .quit (i :: before) later j w (by rw [inputs, List.cons_append])
                    (by rw [List.foldlM_cons, goes]; exact waits) given

theorem did_inputs (r : Run) (d : Deed) : (r.did d).inputs = r.inputs ++ d.input?.toList := by
  cases taken : d.input? <;> simp [inputs, did, taken]

theorem ask_inputs (r : Run) (os : List Order) : (r.ask os).inputs = r.inputs := by
  have none : (os.map Deed.asked).filterMap Deed.input? = [] := by
    simp [List.filterMap_map, Function.comp_def, Deed.input?]
  simp [inputs, ask, none]

theorem step_inputs (r : Run) (e : Effect) : (r.step e).1.inputs = r.inputs := by
  cases shown : e.deed? r.client with
  | some d => cases e <;> cases shown <;> simp [step, Effect.deed?, did_inputs, Deed.input?]
  | none =>
      simp only [step, shown]
      exact ask_inputs r _

theorem inputs_kept (is : List Input) : Lasting fun r => r.inputs = is where
  client _ _ same := same
  complained r text same := (did_inputs r (.complained text)).trans ((List.append_nil _).trans same)
  step r e same := (step_inputs r e).trans same
  heard r x same := (ask_inputs (r.did (.took (.report x))) (r.connection.hear x).orders).trans same

theorem waiting_inputs (r w : Run) (is : List Input) (fresh : r.inputs = [])
    (waits : r.waiting? is = some w) : w.inputs = is := by
  induction is using List.reverseRecOn generalizing w with
  | nil =>
      rw [waiting_started] at waits
      cases waits
      exact drain_kept _ (inputs_kept []) _ _ fresh
  | append_singleton is i ih =>
      obtain ⟨before, reached, goes⟩ := waiting_snoc r w is i waits
      have took : (before.did (.took i)).inputs = is ++ [i] := by rw [did_inputs, ih before reached]; rfl
      have taken := take_kept _ (inputs_kept (is ++ [i])) before i took
      rw [next_taken before w i goes] at taken
      exact taken

end Run
end DarkDrop
