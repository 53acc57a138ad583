import DarkDrop.Proofs.Play.Waiting
import DarkDrop.Terminal.Page

namespace DarkDrop
open Wire

def Deed.shown? : Deed → Option Client
  | .shown c => some c
  | _ => none

structure Renders (es : List Effect) : Prop where
  last : es.getLast? = some .render
  stays : ∀ e ∈ es, e ≠ .quit

theorem renders_append (es more : List Effect) (stays : ∀ e ∈ es, e ≠ .quit) (renders : Renders more) :
    Renders (es ++ more) := by
  refine ⟨by rw [List.getLast?_append, renders.last]; rfl, fun e member => ?_⟩
  rcases List.mem_append.mp member with old | new
  · exact stays e old
  · exact renders.stays e new

theorem calm_stays (es : List Effect) (calm : ∀ e ∈ es, e.calm = true) : ∀ e ∈ es, e ≠ .quit := by
  rintro e member rfl
  exact absurd (calm .quit member) (by decide)

theorem hear_renders (c : Client) (s : Signal) : Renders (c.hear s).2 := by
  refine ⟨?_, calm_stays _ (hear_calm c s)⟩
  cases s with
  | connected user => cases room : c.roomToJoin <;> simp [Client.hear, Client.onConnected, room]
  | connectionFailed reason =>
      by_cases quick : c.screen = .quickJoin <;> simp [Client.hear, quick]
  | connecting | disconnected | server | undecodable | rejected => simp [Client.hear]

theorem hear_all_renders (c : Client) (ss : List Signal) :
    (c.hearAll ss).2 = [] ∨ Renders (c.hearAll ss).2 := by
  induction ss generalizing c with
  | nil => exact .inl rfl
  | cons s ss ih =>
      have now := hear_renders c s
      rw [Client.hearAll]
      rcases ih (c.hear s).1 with silent | later
      · simp only [silent, List.append_nil]
        exact .inr now
      · exact .inr (renders_append _ _ now.stays later)

namespace Run

def shown? (r : Run) : Option Client := (r.log.filterMap Deed.shown?).getLast?

def pages (r : Run) (base : Url) : List Page :=
  (r.log.filterMap Deed.shown?).map fun c => .ofClient c base

theorem did_shown (r : Run) (d : Deed) : (r.did d).shown? = d.shown?.or r.shown? := by
  cases shown : d.shown? <;> simp [shown?, did, shown]

theorem ask_shown (r : Run) (os : List Order) : (r.ask os).shown? = r.shown? := by
  have none : (os.map Deed.asked).filterMap Deed.shown? = [] := by
    simp [List.filterMap_map, Function.comp_def, Deed.shown?]
  simp [shown?, ask, none]

structure Shows (out : Run) (trace : List (Run × Effect)) : Prop where
  current : out.shown? = some out.client
  last : ∃ s, trace.getLast? = some (s, .render) ∧ s.client = out.client

theorem shows_behind (out : Run) (before trace : List (Run × Effect)) (shows : Shows out trace) :
    Shows out (before ++ trace) := by
  obtain ⟨s, last, client⟩ := shows.last
  exact ⟨shows.current, s, by rw [List.getLast?_append, last]; rfl, client⟩

theorem step_renders (r : Run) (e : Effect) : (r.step e).2 = [] ∨ Renders (r.step e).2 := by
  rw [step]
  cases e.deed? r.client with
  | some d => exact .inl rfl
  | none => exact hear_all_renders r.client _

-- Whatever an effect leads to is put behind the render that waits already, and
-- brings another one along.
theorem drain_shows (r : Run) (es : List Effect) (renders : Renders es) :
    Shows (r.drain .never es).1 (r.steps es) := by
  fun_induction steps r es with
  | case1 r => cases renders.last
  | case2 r e es ih =>
      have stays := renders.stays e (by simp)
      rw [drain_step r e es stays, if_neg stays]
      cases es with
      | nil =>
          obtain rfl : e = .render := by simpa using renders.last
          change Shows (drain .never (r.did (.shown r.client)) []).1
            ((r, .render) :: steps (r.did (.shown r.client)) [])
          rw [drain, steps]
          exact ⟨did_shown r (.shown r.client), r, rfl, rfl⟩
      | cons d ds =>
          have rest : Renders (d :: ds) :=
            ⟨by simpa using renders.last, fun x member => renders.stays x (by simp [member])⟩
          have whole : Renders (d :: ds ++ (r.step e).2) := by
            rcases step_renders r e with silent | answers
            · rwa [silent, List.append_nil]
            · exact renders_append _ _ rest.stays answers
          exact shows_behind _ [(r, e)] _ (ih whole)

theorem heard_shows (r : Run) (s : Signal) (ss : List Signal) :
    Shows (r.hearAll .never (s :: ss)).1 (r.heard (s :: ss)) := by
  induction ss generalizing r s with
  | nil =>
      have now := drain_shows { r with client := (r.client.hear s).1 } _ (hear_renders r.client s)
      have quiet := calm_quiet { r with client := (r.client.hear s).1 } _ (hear_calm r.client s)
      rw [hearAll, heard]
      generalize drain .never _ _ = drained at now quiet
      obtain ⟨next, progress⟩ := drained
      cases quiet.going
      simpa [hearAll, heard] using now
  | cons t ss ih =>
      have quiet := calm_quiet { r with client := (r.client.hear s).1 } _ (hear_calm r.client s)
      rw [hearAll, heard]
      generalize drain .never _ _ = drained at quiet
      obtain ⟨next, progress⟩ := drained
      cases quiet.going
      exact shows_behind _ _ _ (ih next t)

def Displayed (r : Run) (i : Input) : Prop :=
  Shows (r.take .never i).1 (r.carried i) ∨
    ((r.take .never i).1.client = r.client ∧ ∀ s ∈ r.carried i, s.2 = .quit)

theorem command_displayed (r : Run) (c : Command) :
    Shows (r.command .never c).1 (r.commanded c) ∨
      (r.command .never c = (r, .ended) ∧ ∀ s ∈ r.commanded c, s.2 = .quit) := by
  have made := command_cases r.client c
  rw [command, commanded]
  generalize r.client.command c = answer at made
  cases made with
  | refused text off => exact .inl (drain_shows _ _ ⟨rfl, by simp⟩)
  | asking next e on calm screen room asks live =>
      refine .inl (drain_shows _ _ ⟨rfl, calm_stays _ fun d member => ?_⟩)
      rcases List.mem_pair.mp member with rfl | rfl
      · exact calm
      · rfl
  | dialling user on outside asks => exact .inl (drain_shows _ _ ⟨rfl, by simp⟩)
  | leaving next on outside room asks => exact .inl (drain_shows _ _ ⟨rfl, by simp⟩)
  | quitting on asks =>
      refine .inr ⟨drain_quit r [], fun s member => ?_⟩
      rw [steps, if_pos rfl, List.mem_singleton] at member
      rw [member]

theorem report_displayed (r : Run) (x : Report) :
    Shows (r.report .never x).1 (r.reported x) ∨
      ((r.report .never x).1.client = r.client ∧ (r.report .never x).1.shown? = r.shown? ∧
        r.reported x = []) := by
  rw [report, reported]
  cases (r.connection.hear x).signals with
  | nil => exact .inr ⟨rfl, ask_shown r _, rfl⟩
  | cons s ss => exact .inl (heard_shows _ s ss)

theorem take_displayed (r : Run) (current : r.shown? = some r.client) (i : Input) :
    (r.take .never i).1.shown? = some (r.take .never i).1.client ∧ r.Displayed i := by
  have took : (r.did (.took i)).shown? = some (r.did (.took i)).client :=
    (did_shown r (.took i)).trans current
  cases given : r.command? i with
  | some c =>
      have trace : r.carried i = (r.did (.took i)).commanded c := by
        cases i with
        | report x => cases given
        | command | line | failure => rw [carried, given]; simp
      rw [Displayed, command_taken r i c given, trace]
      rcases command_displayed (r.did (.took i)) c with shows | ⟨ended, quits⟩
      · exact ⟨shows.current, .inl shows⟩
      · rw [ended]
        exact ⟨took, .inr ⟨rfl, quits⟩⟩
  | none =>
      cases i with
      | command c => cases given
      | failure reason => exact ⟨took, .inr ⟨rfl, fun s member => by cases member⟩⟩
      | line text =>
          have run : r.take .never (.line text) = (r.did (.took (.line text))).line .never text := rfl
          have trace : r.carried (.line text) = [] := by rw [carried, given]; simp
          rw [Displayed, run, trace]
          rcases idle_line (r.did (.took (.line text))) text given with quiet | ⟨complaint, told⟩
          · rw [quiet]
            exact ⟨took, .inr ⟨rfl, by simp⟩⟩
          · rw [told]
            exact ⟨(did_shown _ (.complained complaint)).trans took, .inr ⟨rfl, by simp⟩⟩
      | report x =>
          have run : r.take .never (.report x) = (r.did (.took (.report x))).report .never x := rfl
          have trace : r.carried (.report x) = (r.did (.took (.report x))).reported x := rfl
          rw [Displayed, run, trace]
          rcases report_displayed (r.did (.took (.report x))) x with shows | ⟨client, shown, silent⟩
          · exact ⟨shows.current, .inl shows⟩
          · rw [client, shown, silent]
            exact ⟨took, .inr ⟨rfl, by simp⟩⟩

theorem start_shows (r : Run) : (r.start .never).1.shown? = some (r.start .never).1.client := by
  have renders : Renders r.client.start.2 := by
    rw [Client.start]
    split <;> exact ⟨rfl, by simp⟩
  exact (drain_shows _ _ renders).current

theorem follow_shows (r : Run) (current : r.shown? = some r.client) (is : List Input) :
    (r.follow .never is).1.shown? = some (r.follow .never is).1.client := by
  induction is generalizing r with
  | nil => exact current
  | cons i is ih =>
      have after := (take_displayed r current i).1
      cases taken : r.take .never i with
      | mk next progress =>
          rw [taken] at after
          by_cases on : progress = .going
          · subst on
            rw [(turns_going r next i is taken).2]
            exact ih next after
          · rw [(turns_stopped r next i is progress taken on).2]
            exact after

theorem leave_shown (r : Run) : r.leave.shown? = r.shown? := ask_shown r _

theorem play_shows (r : Run) (is : List Input) :
    (r.play .never is).1.shown? = some (r.play .never is).1.client := by
  have followed := follow_shows _ (start_shows r) is
  rw [played]
  generalize (r.start .never).1.follow .never is = out at followed
  obtain ⟨last, progress⟩ := out
  cases progress with
  | going | ended => exact (leave_shown last).trans followed
  | failed reason => exact followed

theorem waiting_shows (r w : Run) (is : List Input) (waits : r.waiting? is = some w) :
    w.shown? = some w.client := by
  refine waiting_holds (fun _ w => w.shown? = some w.client) r (start_shows r) ?_ is w waits
  intro ts before i next current goes
  have after := (take_displayed before current i).1
  rwa [next_taken before next i goes] at after

theorem last_page (r : Run) (current : r.shown? = some r.client) (base : Url) :
    (r.pages base).getLast? = some (.ofClient r.client base) := by
  rw [pages, List.getLast?_map, ← shown?, current]
  rfl

structure UpToDate (r : Run) (is : List Input) : Prop where
  waits : ∀ w, r.waiting? is = some w → w.shown? = some w.client ∧
    ∀ base, (w.pages base).getLast? = some (.ofClient w.client base)
  ends : (r.play .never is).1.shown? = some (r.play .never is).1.client ∧
    ∀ base, ((r.play .never is).1.pages base).getLast? = some (.ofClient (r.play .never is).1.client base)
  turns : ∀ t ∈ r.handled is, t.1.Displayed t.2

theorem display_up_to_date (endpoint : Endpoint) (room memory : Option String) (is : List Input) :
    (new endpoint room memory).UpToDate is := by
  refine ⟨fun w waits => ?_, ?_, fun t member => ?_⟩
  · have current := waiting_shows _ w is waits
    exact ⟨current, last_page w current⟩
  · have current := play_shows (new endpoint room memory) is
    exact ⟨current, last_page _ current⟩
  · rw [handled_turns] at member
    have current := turns_hold (fun r => r.shown? = some r.client)
      (fun r i current => (take_displayed r current i).1) _ (start_shows _) is t member
    exact (take_displayed t.1 current t.2).2

end Run
end DarkDrop
