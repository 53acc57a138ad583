import DarkDrop.Proofs.Play.Requests

namespace DarkDrop
open Wire

namespace Run

def performed (r : Run) (is : List Input) : List (Run × Effect) :=
  steps { r with client := r.client.start.1 } r.client.start.2 ++
    (r.handled is).flatMap fun t => t.1.carried t.2

structure RequestLedger (r : Run) (is : List Input) : Prop where
  frames : (r.play .never is).1.frames.map (fun f => (some f.1, ClientMessage.decode f.2)) =
    (r.handled is).flatMap fun t => (t.1.requests t.2).map fun m => (t.1.connection.link?, .ok m)
  traced : (r.play .never is).1.frames = (r.performed is).flatMap framesOf
  delivered : ∀ s ∈ r.performed is, ∀ m, s.2.message? = some m →
    ∃ link, s.1.connection.link? = some link ∧ asked s = [.send link m.encode]
  refused : ∀ t ∈ r.handled is, ∀ c, t.1.command? t.2 = some c → t.1.client.accepts c = false →
    (t.1.take .never t.2).1.client = t.1.client ∧
    (t.1.take .never t.2).1.connection = t.1.connection ∧
    (t.1.take .never t.2).1.memory = t.1.memory ∧
    (t.1.take .never t.2).1.orders = t.1.orders

theorem start_silent (r : Run) :
    ((steps { r with client := r.client.start.1 } r.client.start.2).filterMap
      fun s => s.2.message?) = [] := by
  rw [(start_quiet r).messages, Client.start]
  split <;> rfl

theorem start_outside (c : Client) (outside : c.screen.linked = false) :
    c.start.1.screen.linked = false := by
  rw [Client.start]
  split
  · simp only [Client.move]
    cases c.screen <;> rfl
  · exact outside

theorem start_room (c : Client) (room : String) (held : c.start.1.pendingRoom = some room) :
    room.length = roomIdLength := by
  rw [Client.start] at held
  split at held
  · cases held
  · rename_i valid
    have kept : c.pendingRoom = some room := held
    by_contra misfit
    exact valid ⟨room.length⟩ (by simp [kept, checkRoomId, misfit])

theorem start_linked (endpoint : Endpoint) (room memory : Option String) :
    ((new endpoint room memory).start .never).1.Linked := by
  have quiet := start_quiet (new endpoint room memory)
  have outside : (new endpoint room memory).client.screen.linked = false := by
    cases room <;> rfl
  refine quiet_linked _ _ _ _ _ quiet ⟨Connection.new_sound endpoint, fun inside => ?_, start_room _⟩
  rw [start_outside _ outside] at inside
  cases inside

theorem turns_linked (r : Run) (linked : r.Linked) (is : List Input) : ∀ t ∈ r.turns is, t.1.Linked :=
  turns_hold Linked (fun r i linked => (turn_holds r linked i).linked) r linked is

theorem follow_frames (r : Run) (linked : r.Linked) (is : List Input) :
    (r.follow .never is).1.frames =
      r.frames ++ ((r.turns is).flatMap fun t => t.1.carried t.2).flatMap framesOf := by
  induction is generalizing r with
  | nil => exact (List.append_nil r.frames).symm
  | cons i is ih =>
      have turn := turn_holds r linked i
      have after := turn.linked
      have sent := turn.frames
      cases taken : r.take .never i with
      | mk next progress =>
          rw [taken] at after sent
          by_cases on : progress = .going
          · subst on
            obtain ⟨turns, follow⟩ := turns_going r next i is taken
            rw [turns, follow, ih next after, sent, List.flatMap_cons, List.flatMap_append,
              List.append_assoc]
          · obtain ⟨turns, follow⟩ := turns_stopped r next i is progress taken on
            rw [turns, follow, sent, List.flatMap_singleton]

theorem leave_frames (r : Run) : r.leave.frames = r.frames := by
  change (r.ask r.connection.disconnect.orders).frames = r.frames
  rw [frames, ask_orders, List.filterMap_append, disconnect_frames, List.append_nil]
  rfl

theorem play_frames (r : Run) (is : List Input) :
    (r.play .never is).1.frames = ((r.start .never).1.follow .never is).1.frames := by
  rw [played]
  generalize (r.start .never).1.follow .never is = out
  obtain ⟨last, progress⟩ := out
  cases progress with
  | going | ended => exact leave_frames last
  | failed reason => rfl

theorem start_frames (r : Run) (fresh : r.frames = []) :
    (steps { r with client := r.client.start.1 } r.client.start.2).flatMap framesOf = [] ∧
      (r.start .never).1.frames = [] := by
  have none : (steps { r with client := r.client.start.1 } r.client.start.2).flatMap framesOf = [] := by
    rw [List.flatMap_eq_nil_iff]
    intro s member
    exact silent_frames s (List.filterMap_eq_nil_iff.mp (start_silent r) s member)
  have drained := drain_frames { r with client := r.client.start.1 } r.client.start.2
  rw [none, List.append_nil] at drained
  exact ⟨none, drained.trans fresh⟩

theorem performed_delivers (r : Run) (is : List Input) (linked : (r.start .never).1.Linked) :
    ∀ s ∈ r.performed is, ∃ link, Delivers link s := by
  intro s member
  rw [performed, handled_turns] at member
  rcases List.mem_append.mp member with early | later
  · exact ⟨none, silent_delivers none _ (start_silent r) s early⟩
  · obtain ⟨t, handled, carried⟩ := List.mem_flatMap.mp later
    exact ⟨_, (turn_holds t.1 (turns_linked _ linked is t handled) t.2).delivered s carried⟩

theorem turns_decoded (r : Run) (linked : r.Linked) (is : List Input) :
    (((r.turns is).flatMap fun t => t.1.carried t.2).flatMap framesOf).map
        (fun f => (some f.1, ClientMessage.decode f.2)) =
      (r.turns is).flatMap fun t => (t.1.requests t.2).map fun m => (t.1.connection.link?, .ok m) := by
  have each := turns_linked r linked is
  generalize r.turns is = ts at each
  induction ts with
  | nil => rfl
  | cons t ts ih =>
      have turn := turn_holds t.1 (each t (by simp)) t.2
      have rest := ih fun later member => each later (by simp [member])
      rw [List.flatMap_cons, List.flatMap_cons, List.flatMap_append, List.map_append, rest,
        delivered_frames _ _ turn.delivered, turn.messages]

theorem request_ledger (endpoint : Endpoint) (room memory : Option String) (is : List Input) :
    RequestLedger (new endpoint room memory) is := by
  have linked := start_linked endpoint room memory
  obtain ⟨none, early⟩ := start_frames (new endpoint room memory) rfl
  generalize new endpoint room memory = r at linked none early
  have sent : (r.play .never is).1.frames =
      (((r.start .never).1.turns is).flatMap fun t => t.1.carried t.2).flatMap framesOf := by
    rw [play_frames, follow_frames _ linked, early, List.nil_append]
  refine ⟨?_, ?_, ?_, ?_⟩
  · rw [sent, handled_turns]
    exact turns_decoded _ linked is
  · rw [sent, performed, handled_turns, List.flatMap_append, none, List.nil_append]
  · intro s member m asks
    obtain ⟨link, delivers⟩ := performed_delivers r is linked s member
    obtain ⟨current, l, same, sends⟩ := delivers m asks
    exact ⟨l, current.trans same, sends⟩
  · intro t _ c given off
    obtain ⟨text, taken⟩ := refused_taken t.1 t.2 c given off
    rw [taken]
    refine ⟨rfl, rfl, rfl, ?_⟩
    rw [did_orders, did_orders, did_orders]
    simp [Deed.order?]

-- A quick join. Its link opens twice, as far as the reports go.
theorem quick_join_asked :
    let r := new {} (some "ZZ9PL") none
    let is : List Input := [.command (.login "bob"), .report ⟨1, .opened⟩, .report ⟨1, .opened⟩]
    RequestLedger r is ∧
      (r.play .never is).1.frames.map (fun f => (f.1, ClientMessage.decode f.2)) =
        [(1, .ok .sessionRequest), (1, .ok (.joinSession "ZZ9PL"))] := by
  intro r is
  exact ⟨request_ledger {} (some "ZZ9PL") none is, by decide +kernel⟩

end Run
end DarkDrop
