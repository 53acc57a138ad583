import DarkDrop.Play.Script
import DarkDrop.Proofs.Link.Calls

namespace DarkDrop
open Wire

def Order.frame? : Order → Option (LinkId × String)
  | .send link text => some (link, text)
  | _ => none

def Deed.order? : Deed → Option Order
  | .asked o => some o
  | _ => none

-- The request that an effect is to send. A room id of the wrong length is
-- turned down before there is one.
def Effect.message? : Effect → Option ClientMessage
  | .createSession => some .createSession
  | .joinSession room => if room.length = roomIdLength then some (.joinSession room) else none
  | .leaveSession => some .leaveSession
  | .requestSession => some .sessionRequest
  | .startGame => some .startGame
  | .play column => some (.play column)
  | _ => none

def Effect.calm : Effect → Bool
  | .quit | .connect _ | .disconnect => false
  | _ => true

def Client.greeting (c : Client) : List ClientMessage :=
  .sessionRequest :: c.roomToJoin.toList.filterMap fun room => (Effect.joinSession room).message?

def Client.answers (c : Client) : Signal → List ClientMessage
  | .connected _ => c.greeting
  | _ => []

theorem hear_calm (c : Client) (s : Signal) : ∀ e ∈ (c.hear s).2, e.calm = true := by
  cases s with
  | connected user =>
      cases room : c.roomToJoin <;> simp [Client.hear, Client.onConnected, room, Effect.calm]
  | connectionFailed reason =>
      by_cases quick : c.screen = .quickJoin <;> simp [Client.hear, quick, Effect.calm]
  | server m =>
      cases told : (c.onMessage m).2 <;> simp [Client.hear, told, Effect.calm]
  | connecting | disconnected | undecodable | rejected => simp [Client.hear, Effect.calm]

theorem hear_messages (c : Client) (s : Signal) :
    (c.hear s).2.filterMap Effect.message? = c.answers s := by
  cases s with
  | connected user =>
      cases joins : c.roomToJoin with
      | none => simp [Client.hear, Client.onConnected, Client.answers, Client.greeting, joins,
          List.filterMap_cons, Effect.message?]
      | some room =>
          by_cases fits : room.length = roomIdLength <;>
            simp [Client.hear, Client.onConnected, Client.answers, Client.greeting, joins, fits,
              List.filterMap_cons, Effect.message?]
  | connectionFailed reason =>
      by_cases quick : c.screen = .quickJoin <;>
        simp [Client.hear, Client.answers, quick, Effect.message?]
  | server m =>
      cases told : (c.onMessage m).2 <;> simp [Client.hear, Client.answers, told, Effect.message?]
  | connecting | disconnected | undecodable | rejected =>
      simp [Client.hear, Client.answers, Effect.message?]

namespace Run

def orders (r : Run) : List Order := r.log.filterMap Deed.order?

def frames (r : Run) : List (LinkId × String) := r.orders.filterMap Order.frame?

def step (r : Run) (e : Effect) : Run × List Effect :=
  match e.deed? r.client with
  | some d => (r.did d, [])
  | none => r.perform e

theorem step_lighter (r : Run) (e : Effect) (es : List Effect) :
    Effect.weigh (es ++ (r.step e).2) < Effect.weigh (e :: es) := by
  rw [Effect.weigh_append]
  simp only [Effect.weigh, step, List.foldr_cons]
  cases e.deed? r.client with
  | some d =>
      have : 0 < e.weight := by cases e <;> simp [Effect.weight]
      simp only [List.foldr_nil]
      omega
  | none =>
      have lighter := r.client.weigh_hearAll_perform r.connection e
      simp only [Effect.weigh, perform] at lighter ⊢
      omega

def steps (r : Run) : List Effect → List (Run × Effect)
  | [] => []
  | e :: es => (r, e) :: if e = .quit then [] else (r.step e).1.steps (es ++ (r.step e).2)
termination_by es => Effect.weigh es
decreasing_by exact r.step_lighter e es

theorem drain_quit (r : Run) (es : List Effect) : r.drain .never (.quit :: es) = (r, .ended) := by
  rw [drain]
  rfl

theorem drain_step (r : Run) (e : Effect) (es : List Effect) (stays : e ≠ .quit) :
    r.drain .never (e :: es) = (r.step e).1.drain .never (es ++ (r.step e).2) := by
  rw [drain, step]
  cases e.deed? r.client with
  | some d => simp only [Refusal.never, List.append_nil]
  | none => simp only [if_neg stays]

theorem did_orders (r : Run) (d : Deed) : (r.did d).orders = r.orders ++ d.order?.toList := by
  cases asked : d.order? <;> simp [orders, did, asked]

theorem ask_orders (r : Run) (os : List Order) : (r.ask os).orders = r.orders ++ os := by
  have all : (os.map Deed.asked).filterMap Deed.order? = os := by
    simp [List.filterMap_map, Function.comp_def, Deed.order?]
  simp [orders, ask, all]

def asked (s : Run × Effect) : List Order := (s.1.connection.perform s.2).orders

theorem step_orders (r : Run) (e : Effect) : (r.step e).1.orders = r.orders ++ asked (r, e) := by
  cases shown : e.deed? r.client with
  | some d =>
      cases e <;> cases shown <;> simp [step, Effect.deed?, did_orders, Deed.order?, asked, Connection.perform]
  | none =>
      simp only [step, shown]
      exact ask_orders r _

theorem drain_orders (r : Run) (es : List Effect) :
    (r.drain .never es).1.orders = r.orders ++ (r.steps es).flatMap asked := by
  fun_induction steps r es with
  | case1 r => simp [drain]
  | case2 r e es ih =>
      by_cases last : e = .quit
      · subst last
        simp [drain_quit, asked, Connection.perform]
      · rw [drain_step r e es last, ih, step_orders, if_neg last, List.flatMap_cons, List.append_assoc]

-- Work that neither ends a run nor moves its connection: who the client is
-- afterwards, what was carried out for it, and which requests that were.
structure Quiet (r : Run) (out : Run × Progress) (client : Client) (trace : List (Run × Effect))
    (messages : List ClientMessage) : Prop where
  going : out.2 = .going
  client : out.1.client = client
  connection : out.1.connection = r.connection
  orders : out.1.orders = r.orders ++ trace.flatMap asked
  messages : trace.filterMap (fun s => s.2.message?) = messages
  met : ∀ s ∈ trace, s.1.connection = r.connection

theorem quiet_then (r next : Run) (out : Run × Progress) (before after : Client)
    (trace rest : List (Run × Effect)) (ms more : List ClientMessage)
    (first : Quiet r (next, .going) before trace ms) (second : Quiet next out after rest more) :
    Quiet r out after (trace ++ rest) (ms ++ more) := by
  refine ⟨second.going, second.client, second.connection.trans first.connection, ?_, ?_, ?_⟩
  · rw [second.orders, first.orders, List.flatMap_append, List.append_assoc]
  · rw [List.filterMap_append, first.messages, second.messages]
  · intro s member
    rcases List.mem_append.mp member with now | later
    · exact first.met s now
    · exact (second.met s later).trans first.connection

theorem send_kept (c : Connection) (m : ClientMessage) : (c.send m).connection = c := by
  rw [Connection.send]
  split <;> rfl

theorem step_calm (r : Run) (e : Effect) (calm : e.calm = true) :
    (r.step e).1.client = r.client ∧ (r.step e).1.connection = r.connection ∧
      (∀ later ∈ (r.step e).2, later.calm = true) ∧
      (r.step e).2.filterMap Effect.message? = [] := by
  cases e with
  | quit | connect | disconnect => cases calm
  | render | notify | cacheUser | clearCachedUser => exact ⟨rfl, rfl, by simp [step, Effect.deed?], rfl⟩
  | createSession | leaveSession | requestSession | startGame | play =>
      exact ⟨rfl, rfl, by simp [step, Effect.deed?, perform, Connection.perform, Client.hearAll], rfl⟩
  | joinSession room =>
      by_cases fits : room.length = roomIdLength
      · have performed : r.connection.perform (.joinSession room) =
            ⟨r.connection, (r.connection.send (.joinSession room)).orders, []⟩ := by
          simp [Connection.perform, Connection.joinSession, checkRoomId, fits, Except.map, send_kept]
        simp [step, Effect.deed?, perform, performed, Client.hearAll]
      · simp [step, Effect.deed?, perform, Connection.perform, Connection.joinSession, checkRoomId, fits,
          Except.map, Client.hearAll, Client.hear, Effect.calm, Effect.message?]

theorem step_quiet (r : Run) (e : Effect) (calm : e.calm = true) :
    Quiet r ((r.step e).1, .going) r.client [(r, e)] e.message?.toList := by
  obtain ⟨client, connection, _, _⟩ := step_calm r e calm
  refine ⟨rfl, client, connection, ?_, ?_, fun s member => by rw [List.mem_singleton.mp member]⟩
  · rw [List.flatMap_singleton]
    exact step_orders r e
  · cases asks : e.message? <;> simp [asks]

theorem calm_quiet (r : Run) (es : List Effect) (calm : ∀ e ∈ es, e.calm = true) :
    Quiet r (r.drain .never es) r.client (r.steps es) (es.filterMap Effect.message?) := by
  fun_induction steps r es with
  | case1 r =>
      rw [drain]
      exact ⟨rfl, rfl, rfl, (List.append_nil r.orders).symm, rfl, fun s member => by cases member⟩
  | case2 r e es ih =>
      have stays : e ≠ .quit := by
        rintro rfl
        exact absurd (calm .quit (by simp)) (by decide)
      obtain ⟨client, _, later, silent⟩ := step_calm r e (calm e (by simp))
      have rest := ih fun d member => by
        rcases List.mem_append.mp member with old | new
        · exact calm d (by simp [old])
        · exact later d new
      rw [client, List.filterMap_append, silent, List.append_nil] at rest
      have whole := quiet_then r _ _ _ _ _ _ _ _ (step_quiet r e (calm e (by simp))) rest
      have messages : (e :: es).filterMap Effect.message? =
          e.message?.toList ++ es.filterMap Effect.message? := by
        cases asks : e.message? <;> simp [asks]
      rw [drain_step r e es stays, if_neg stays, messages]
      exact whole

theorem led_quiet (r : Run) (e : Effect) (es : List Effect) (stays : e ≠ .quit)
    (behind : ∀ d ∈ es, d.calm = true) (ahead : ∀ d ∈ (r.step e).2, d.calm = true) :
    r.steps (e :: es) = (r, e) :: (r.step e).1.steps (es ++ (r.step e).2) ∧
      Quiet (r.step e).1 (r.drain .never (e :: es)) (r.step e).1.client
        ((r.step e).1.steps (es ++ (r.step e).2)) ((es ++ (r.step e).2).filterMap Effect.message?) := by
  refine ⟨by rw [steps, if_neg stays], ?_⟩
  rw [drain_step r e es stays]
  apply calm_quiet
  intro later member
  rcases List.mem_append.mp member with old | new
  · exact behind later old
  · exact ahead later new

def heard (r : Run) : List Signal → List (Run × Effect)
  | [] => []
  | s :: ss =>
      let answer := r.client.hear s
      let next := { r with client := answer.1 }
      next.steps answer.2 ++ match next.drain .never answer.2 with
        | (following, .going) => following.heard ss
        | _ => []

theorem signals_quiet (r : Run) (ss : List Signal) :
    Quiet r (r.hearAll .never ss) (r.client.hearAll ss).1 (r.heard ss)
      ((r.client.hearAll ss).2.filterMap Effect.message?) := by
  induction ss generalizing r with
  | nil => exact ⟨rfl, rfl, rfl, (List.append_nil r.orders).symm, rfl, fun s member => by cases member⟩
  | cons s ss ih =>
      have now := calm_quiet { r with client := (r.client.hear s).1 } (r.client.hear s).2
        (hear_calm r.client s)
      rw [hearAll, heard, Client.hearAll, List.filterMap_append]
      cases drained : drain .never { r with client := (r.client.hear s).1 } (r.client.hear s).2 with
      | mk next progress =>
          rw [drained] at now
          have going : progress = .going := now.going
          have client : next.client = (r.client.hear s).1 := now.client
          subst going
          have rest := ih next
          rw [client] at rest
          exact quiet_then r next _ _ _ _ _ _ _
            ⟨now.going, now.client, now.connection, now.orders, now.messages, now.met⟩ rest

end Run
end DarkDrop
