import DarkDrop.Proofs.Play.Turns
import DarkDrop.Proofs.Wire.RoundTrip

namespace DarkDrop
open Wire

def Screen.requests : Screen → Command → List ClientMessage
  | .menu, .createSession => [.createSession]
  | .menu, .joinSession room => if (Text.trim room).length = 5 then [.joinSession (Text.trim room)] else []
  | .lobby, .leaveSession => [.leaveSession]
  | .lobby, .startGame => [.startGame]
  | .game, .play column => [.play column]
  | _, _ => []

def Screen.linked : Screen → Bool
  | .menu | .lobby | .game => true
  | .login | .quickJoin => false

namespace Run

def opens (r : Run) (x : Report) : Prop :=
  x.event = .opened ∧ r.connection.isConnecting = true ∧ (r.connection.receive x).connection.isOpen = true

instance (r : Run) (x : Report) : Decidable (r.opens x) := inferInstanceAs (Decidable (_ ∧ _))

def requests (r : Run) : Input → List ClientMessage
  | .report x =>
      if r.opens x then
        match r.client.screen, r.client.pendingRoom with
        | .quickJoin, some room => [.sessionRequest, .joinSession room]
        | _, _ => [.sessionRequest]
      else []
  | i =>
      match r.command? i with
      | some c => r.client.screen.requests c
      | none => []

def commanded (r : Run) (c : Command) : List (Run × Effect) :=
  steps { r with client := (r.client.command c).1 } (r.client.command c).2

def reported (r : Run) (x : Report) : List (Run × Effect) :=
  heard { r.ask (r.connection.hear x).orders with connection := (r.connection.hear x).connection }
    (r.connection.hear x).signals

def carried (r : Run) (i : Input) : List (Run × Effect) :=
  match i with
  | .report x => (r.did (.took i)).reported x
  | i =>
      match r.command? i with
      | some c => (r.did (.took i)).commanded c
      | none => []

-- The invariant behind the requests: a screen that can ask has a link to ask
-- on, and a room is only kept for later if its id can be sent.
structure Linked (r : Run) : Prop where
  sound : r.connection.Sound
  live : r.client.screen.linked = true → ∃ link user, r.connection.live? = some (link, user)
  room : ∀ room, r.client.pendingRoom = some room → room.length = roomIdLength

def Delivers (link : Option LinkId) (s : Run × Effect) : Prop :=
  ∀ m, s.2.message? = some m →
    s.1.connection.link? = link ∧ ∃ l, link = some l ∧ asked s = [.send l m.encode]

def framesOf (s : Run × Effect) : List (LinkId × String) := (asked s).filterMap Order.frame?

theorem asked_sends (s : Run × Effect) (sound : s.1.connection.Sound) (link : LinkId) (user : String)
    (live : s.1.connection.live? = some (link, user)) (m : ClientMessage)
    (asks : s.2.message? = some m) : asked s = [.send link m.encode] := by
  obtain ⟨r, e⟩ := s
  have sent := r.connection.send_live sound m link user live
  cases e with
  | joinSession room =>
      by_cases fits : room.length = roomIdLength
      · simp only [Effect.message?, if_pos fits, Option.some.injEq] at asks
        subst asks
        simp [asked, Connection.perform, Connection.joinSession, checkRoomId, fits, Except.map, sent]
      · simp [Effect.message?, fits] at asks
  | createSession | leaveSession | requestSession | startGame | play =>
      cases asks
      simp [asked, Connection.perform, sent]
  | render | quit | notify | connect | disconnect | cacheUser | clearCachedUser => cases asks

theorem close_held_frames (c : Connection) : c.closeHeld.filterMap Order.frame? = [] := by
  rw [Connection.closeHeld]
  cases c.held <;> rfl

theorem connect_frames (c : Connection) (user : String) :
    (c.connect user).orders.filterMap Order.frame? = [] := by
  rw [Connection.connect, Connection.openLink]
  repeat' split
  all_goals first | rfl | exact close_held_frames c

theorem disconnect_frames (c : Connection) : c.disconnect.orders.filterMap Order.frame? = [] := by
  rw [Connection.disconnect]
  split
  · exact close_held_frames c
  · exact close_held_frames c
  · rfl
  · rfl
  · rfl

theorem silent_frames (s : Run × Effect) (silent : s.2.message? = none) : framesOf s = [] := by
  obtain ⟨r, e⟩ := s
  cases e with
  | joinSession room =>
      by_cases fits : room.length = roomIdLength
      · simp [Effect.message?, fits] at silent
      · simp [framesOf, asked, Connection.perform, Connection.joinSession, checkRoomId, fits, Except.map]
  | connect user => exact connect_frames r.connection user
  | disconnect => exact disconnect_frames r.connection
  | createSession | leaveSession | requestSession | startGame | play => cases silent
  | render | quit | notify | cacheUser | clearCachedUser => rfl

theorem delivered_frames (link : Option LinkId) (trace : List (Run × Effect))
    (delivered : ∀ s ∈ trace, Delivers link s) :
    (trace.flatMap framesOf).map (fun f => (some f.1, ClientMessage.decode f.2)) =
      (trace.filterMap fun s => s.2.message?).map fun m => (link, .ok m) := by
  induction trace with
  | nil => rfl
  | cons s trace ih =>
      have rest := ih fun later member => delivered later (by simp [member])
      rw [List.flatMap_cons, List.map_append, rest, List.filterMap_cons]
      cases asks : s.2.message? with
      | none => rw [silent_frames s asks]; rfl
      | some m =>
          obtain ⟨_, l, rfl, sent⟩ := delivered s (by simp) m asks
          simp [framesOf, sent, Order.frame?, client_decode_encode]

theorem live_delivers (c : Connection) (sound : c.Sound) (trace : List (Run × Effect))
    (met : ∀ s ∈ trace, s.1.connection = c)
    (live : (trace.filterMap fun s => s.2.message?) ≠ [] → ∃ link user, c.live? = some (link, user)) :
    ∀ s ∈ trace, Delivers c.link? s := by
  intro s member m asks
  have some : m ∈ trace.filterMap fun s => s.2.message? := List.mem_filterMap.mpr ⟨s, member, asks⟩
  obtain ⟨link, user, held⟩ := live (List.ne_nil_of_mem some)
  have same := met s member
  exact ⟨by rw [same], link, c.live_link link user held,
    asked_sends s (by rw [same]; exact sound) link user (by rw [same]; exact held) m asks⟩

end Run

inductive Commanded (c : Client) (cmd : Command) : Client × List Effect → Prop where
  | refused (text : String) (off : c.accepts cmd = false) (asks : c.screen.requests cmd = []) :
      Commanded c cmd (c, [.notify text, .render])
  | asking (next : Client) (e : Effect) (on : c.accepts cmd = true) (calm : e.calm = true)
      (screen : next.screen = c.screen) (room : next.pendingRoom = c.pendingRoom)
      (asks : [e, .render].filterMap Effect.message? = c.screen.requests cmd)
      (live : c.screen.requests cmd ≠ [] → c.screen.linked = true) : Commanded c cmd (next, [e, .render])
  | dialling (user : String) (on : c.accepts cmd = true) (outside : c.screen.linked = false)
      (asks : c.screen.requests cmd = []) : Commanded c cmd (c, [.connect user, .render])
  | leaving (next : Client) (on : c.accepts cmd = true) (outside : next.screen = .login)
      (room : next.pendingRoom = none ∨ next.pendingRoom = c.pendingRoom) (asks : c.screen.requests cmd = []) :
      Commanded c cmd (next, [.disconnect, .render])
  | quitting (on : c.accepts cmd = true) (asks : c.screen.requests cmd = []) : Commanded c cmd (c, [.quit])

theorem refused_requests (c : Client) (cmd : Command) (off : c.accepts cmd = false) :
    c.screen.requests cmd = [] := by
  cases cmd <;> cases screen : c.screen <;> simp [Client.accepts, screen, Screen.requests] at off ⊢

theorem command_cases (c : Client) (cmd : Command) : Commanded c cmd (c.command cmd) := by
  by_cases on : c.accepts cmd = true
  · rw [Client.command, if_pos on]
    cases cmd with
    | login user =>
        have outside : c.screen = .login ∨ c.screen = .quickJoin := by simpa [Client.accepts] using on
        have asks : c.screen.requests (.login user) = [] := by
          rcases outside with screen | screen <;> rw [screen] <;> rfl
        rw [Client.execute]
        split
        · exact .asking c _ on rfl rfl rfl asks.symm (fun some => absurd asks some)
        · exact .dialling _ on (by rcases outside with screen | screen <;> rw [screen] <;> rfl) asks
    | createSession =>
        have screen : c.screen = .menu := by simpa [Client.accepts] using on
        exact .asking c _ on rfl rfl rfl (by rw [screen]; rfl) fun _ => by rw [screen]; rfl
    | joinSession room =>
        have screen : c.screen = .menu := by simpa [Client.accepts] using on
        refine .asking c _ on rfl rfl rfl ?_ fun _ => by rw [screen]; rfl
        rw [screen, Screen.requests]
        by_cases fits : (Text.trim room).length = 5 <;>
          simp [List.filterMap_cons, Effect.message?, roomIdLength, fits]
    | leaveSession =>
        have screen : c.screen = .lobby := by simpa [Client.accepts] using on
        exact .asking c _ on rfl rfl rfl (by rw [screen]; rfl) fun _ => by rw [screen]; rfl
    | startGame =>
        have screen : c.screen = .lobby := by simpa [Client.accepts] using on
        exact .asking c _ on rfl rfl rfl (by rw [screen]; rfl) fun _ => by rw [screen]; rfl
    | play column =>
        have screen : c.screen = .game := by simpa [Client.accepts] using on
        exact .asking c _ on rfl rfl rfl (by rw [screen]; rfl) fun _ => by rw [screen]; rfl
    | disconnect =>
        refine .leaving _ on ?_ (.inr rfl) (by cases c.screen <;> rfl)
        cases screen : c.screen <;> simp [Client.move, Client.forget, screen, Screen.after]
    | abandonQuickJoin =>
        refine .leaving _ on ?_ (.inl rfl) (by cases c.screen <;> rfl)
        cases screen : c.screen <;> simp [Client.move, Screen.after]
    | forgetCachedUser =>
        have asks : c.screen.requests .forgetCachedUser = [] := by cases c.screen <;> rfl
        exact .asking _ _ on rfl rfl rfl asks.symm fun some => absurd asks some
    | quit => exact .quitting on (by cases c.screen <;> rfl)
  · have off : c.accepts cmd = false := by simpa using on
    rw [Client.command, if_neg on]
    exact .refused _ off (refused_requests c cmd off)

namespace Run

-- What it takes to answer an input: what was sent is what was asked for, and
-- all of it went to the link that was current.
structure Answered (r next : Run) (trace : List (Run × Effect)) (messages : List ClientMessage) :
    Prop where
  linked : next.Linked
  frames : next.frames = r.frames ++ trace.flatMap framesOf
  messages : trace.filterMap (fun s => s.2.message?) = messages
  delivered : ∀ s ∈ trace, Delivers r.connection.link? s

def CommandTurn (r : Run) (c : Command) : Prop :=
  Answered r (r.command .never c).1 (r.commanded c) (r.client.screen.requests c)

def Turn (r : Run) (i : Input) : Prop :=
  Answered r (r.take .never i).1 (r.carried i) (r.requests i)

theorem unasked (r next : Run) (linked : next.Linked) (same : next.frames = r.frames) :
    Answered r next [] [] :=
  ⟨linked, by rw [same, List.flatMap_nil, List.append_nil], rfl, fun s member => by cases member⟩

theorem frames_of_orders (trace : List (Run × Effect)) :
    (trace.flatMap asked).filterMap Order.frame? = trace.flatMap framesOf := by
  rw [List.filterMap_flatMap]
  rfl

theorem drain_frames (r : Run) (es : List Effect) :
    (r.drain .never es).1.frames = r.frames ++ (r.steps es).flatMap framesOf := by
  rw [frames, drain_orders, List.filterMap_append, frames_of_orders]
  rfl

theorem silent_delivers (link : Option LinkId) (trace : List (Run × Effect))
    (silent : (trace.filterMap fun s => s.2.message?) = []) : ∀ s ∈ trace, Delivers link s := by
  intro s member m asks
  have some : m ∈ trace.filterMap fun s => s.2.message? := List.mem_filterMap.mpr ⟨s, member, asks⟩
  rw [silent] at some
  cases some

theorem quiet_linked (r : Run) (out : Run × Progress) (client : Client) (trace : List (Run × Effect))
    (messages : List ClientMessage) (quiet : Quiet r out client trace messages)
    (linked : Linked { r with client := client }) : out.1.Linked := by
  refine ⟨?_, ?_, ?_⟩
  · rw [quiet.connection]
    exact linked.sound
  · rw [quiet.client, quiet.connection]
    exact linked.live
  · rw [quiet.client]
    exact linked.room

theorem calm_turn (r : Run) (linked : r.Linked) (cmd : Command) (next : Client) (es : List Effect)
    (answer : r.client.command cmd = (next, es)) (calm : ∀ e ∈ es, e.calm = true)
    (screen : next.screen = r.client.screen) (room : next.pendingRoom = r.client.pendingRoom)
    (asks : es.filterMap Effect.message? = r.client.screen.requests cmd)
    (live : es.filterMap Effect.message? ≠ [] → r.client.screen.linked = true) : CommandTurn r cmd := by
  have quiet := calm_quiet { r with client := next } es calm
  have still : Linked { r with client := next } :=
    ⟨linked.sound, by rw [screen]; exact linked.live, by rw [room]; exact linked.room⟩
  have trace : r.commanded cmd = steps { r with client := next } es := by
    rw [commanded, answer]
  have run : r.command .never cmd = drain .never { r with client := next } es := by
    rw [command, answer]
  refine ⟨?_, ?_, ?_, ?_⟩
  · rw [run]
    exact quiet_linked _ _ _ _ _ quiet still
  · rw [run, trace]
    exact drain_frames _ es
  · rw [trace, quiet.messages, asks]
  · rw [trace]
    refine live_delivers r.connection linked.sound _ quiet.met fun some => ?_
    rw [quiet.messages] at some
    exact linked.live (live some)

theorem led_turn (r : Run) (cmd : Command) (next : Client) (e : Effect)
    (answer : r.client.command cmd = (next, [e, .render])) (stays : e ≠ .quit)
    (silent : e.message? = none) (asks : r.client.screen.requests cmd = [])
    (ahead : ∀ d ∈ (step { r with client := next } e).2, d.calm = true)
    (quiet : (step { r with client := next } e).2.filterMap Effect.message? = [])
    (linked : (step { r with client := next } e).1.Linked) : CommandTurn r cmd := by
  have trace : r.commanded cmd = steps { r with client := next } [e, .render] := by
    rw [commanded, answer]
  have run : r.command .never cmd = drain .never { r with client := next } [e, .render] := by
    rw [command, answer]
  obtain ⟨behind, rest⟩ := led_quiet { r with client := next } e [.render] stays
    (by simp [Effect.calm]) ahead
  have none : ((r.commanded cmd).filterMap fun s => s.2.message?) = [] := by
    rw [trace, behind, List.filterMap_cons, silent]
    rw [rest.messages, List.filterMap_append, quiet]
    rfl
  refine ⟨?_, ?_, ?_, silent_delivers _ _ none⟩
  · rw [run]
    exact quiet_linked _ _ _ _ _ rest linked
  · rw [run, trace]
    exact drain_frames _ _
  · rw [none, asks]

theorem connect_hears (c : Client) (k : Connection) (user : String) :
    (c.hearAll (k.perform (.connect user)).signals).1.screen = c.screen ∧
      (c.hearAll (k.perform (.connect user)).signals).1.pendingRoom = c.pendingRoom ∧
      (∀ d ∈ (c.hearAll (k.perform (.connect user)).signals).2, d.calm = true) ∧
      (c.hearAll (k.perform (.connect user)).signals).2.filterMap Effect.message? = [] := by
  rcases k.notices_connect user with none | ⟨e, failed⟩
  · simp [Connection.perform, none, Client.hearAll, Client.hear, Effect.calm, Effect.message?]
  · by_cases quick : c.screen = .quickJoin <;>
      simp [Connection.perform, failed, Client.hearAll, Client.hear, Signal.ofNotice, quick,
        Effect.calm, Effect.message?]

theorem command_turn (r : Run) (linked : r.Linked) (cmd : Command) : CommandTurn r cmd := by
  have made := command_cases r.client cmd
  generalize answer : r.client.command cmd = outcome at made
  cases made with
  | refused text off asks =>
      exact calm_turn r linked cmd r.client _ answer (by simp [Effect.calm]) rfl rfl
        (by simp [asks, Effect.message?]) (by simp [Effect.message?])
  | asking next e on calm screen room asks live =>
      refine calm_turn r linked cmd next _ answer ?_ screen room asks ?_
      · intro d member
        rcases List.mem_cons.mp member with rfl | shown
        · exact calm
        · rw [List.mem_singleton.mp shown]
          rfl
      · rw [asks]
        exact live
  | dialling user on outside asks =>
      obtain ⟨screen, room, calm, quiet⟩ := connect_hears r.client r.connection user
      refine led_turn r cmd r.client (.connect user) answer (by simp) rfl asks
        calm quiet ⟨r.connection.call_sound linked.sound (.connect user), ?_, ?_⟩
      · intro inside
        change (r.client.hearAll (r.connection.perform (.connect user)).signals).1.screen.linked = true
          at inside
        rw [screen, outside] at inside
        cases inside
      · intro pending held
        exact linked.room pending (room.symm.trans held)
  | leaving next on outside room asks =>
      refine led_turn r cmd next .disconnect answer (by simp) rfl asks
        (fun d member => by cases member) rfl
        ⟨r.connection.call_sound linked.sound .disconnect, ?_, ?_⟩
      · intro inside
        change next.screen.linked = true at inside
        rw [outside] at inside
        cases inside
      · intro pending held
        change next.pendingRoom = some pending at held
        rcases room with none | same
        · rw [none] at held
          cases held
        · exact linked.room pending (same.symm.trans held)
  | quitting on asks =>
      have run : r.command .never cmd = (r, .ended) := by
        rw [command, answer]
        exact drain_quit r []
      have trace : r.commanded cmd = [(r, .quit)] := by
        rw [commanded, answer, steps]
        rfl
      refine ⟨by rw [run]; exact linked, ?_, ?_, ?_⟩
      · rw [run, trace]
        exact (List.append_nil r.frames).symm
      · rw [trace, asks]
        rfl
      · rw [trace]
        exact silent_delivers _ _ rfl

end Run

theorem hear_room (c : Client) (s : Signal) (room : String)
    (held : (c.hear s).1.pendingRoom = some room) : c.pendingRoom = some room := by
  cases s with
  | connected user =>
      by_cases quick : c.screen = .quickJoin
      · simp [Client.hear, Client.onConnected, Client.move, quick] at held
      · simpa [Client.hear, Client.onConnected, Client.move, quick] using held
  | connectionFailed reason =>
      by_cases quick : c.screen = .quickJoin <;> simpa [Client.hear, quick] using held
  | server m =>
      have same : (c.onMessage m).1.pendingRoom = c.pendingRoom := by
        cases m with
        | clientJoined | clientLeft => simp only [Client.onMessage]; split <;> rfl
        | _ => rfl
      exact same.symm.trans held
  | connecting | disconnected | undecodable | rejected => exact held

theorem hear_all_room (c : Client) (ss : List Signal) (room : String)
    (held : (c.hearAll ss).1.pendingRoom = some room) : c.pendingRoom = some room := by
  induction ss generalizing c with
  | nil => exact held
  | cons s ss ih => exact hear_room c s room (ih (c.hear s).1 held)

theorem hear_one (c : Client) (s : Signal) : c.hearAll [s] = c.hear s := by
  simp [Client.hearAll]

theorem lost_outside (s : Screen) : (s.after .transportClosed).linked = false := by
  cases s <;> rfl

structure Hearing (c : Client) (k : Connection) (x : Report) (o : Outcome) (ss : List Signal) :
    Prop where
  live : (c.hearAll ss).1.screen.linked = true → ∃ link user, o.connection.live? = some (link, user)
  messages : (c.hearAll ss).2.filterMap Effect.message? =
    if x.event = .opened ∧ k.isConnecting = true ∧ o.connection.isOpen = true then c.greeting else []
  greeted : (c.hearAll ss).2.filterMap Effect.message? ≠ [] →
    (∃ link user, o.connection.live? = some (link, user)) ∧ o.connection.link? = k.link?

theorem closed_hearing (c : Client) (k : Connection) (x : Report) (o : Outcome) (more : List Signal)
    (last : x.event = .closed) (again : more = [] ∨ more = [.connecting]) :
    Hearing c k x o (.disconnected :: more) := by
  have outside : (c.hearAll (.disconnected :: more)).1.screen = c.screen.after .transportClosed := by
    rcases again with rfl | rfl <;> rfl
  have silent : (c.hearAll (.disconnected :: more)).2.filterMap Effect.message? = [] := by
    rcases again with rfl | rfl <;> rfl
  refine ⟨fun inside => ?_, ?_, fun some => absurd silent some⟩
  · rw [outside, lost_outside] at inside
    cases inside
  · rw [silent, last, if_neg (by simp)]

theorem told_hearing (c : Client) (k : Connection) (x : Report) (notice : Notice)
    (live : ∃ link user, k.live? = some (link, user)) (told : x.event.notice? = some notice) :
    Hearing c k x ⟨k, [notice], []⟩ [.ofNotice notice] := by
  have other : x.event ≠ .opened := by
    intro same
    rw [same] at told
    cases told
  have silent : (c.hearAll [.ofNotice notice]).2.filterMap Effect.message? = [] := by
    rw [hear_one, hear_messages]
    cases notice with
    | opened user => exact absurd rfl ((Connection.notice_plain x.event _ told).2 user)
    | _ => rfl
  refine ⟨fun _ => live, ?_, fun some => absurd silent some⟩
  rw [silent, if_neg fun opened => other opened.1]

theorem opened_hearing (c : Client) (k : Connection) (sound : k.Sound) (link : LinkId) (user : String)
    (connecting : k.phase = .connecting link user) :
    Hearing c k ⟨link, .opened⟩ ⟨{ k with phase := .open link user }, [.opened user], []⟩
      [.connected user] := by
  have current : k.link? = some link := by simp [Connection.link?, connecting]
  have held : k.held = some link := sound.held.trans current
  refine ⟨fun _ => ⟨link, user, rfl⟩, ?_, fun _ => ⟨⟨link, user, rfl⟩, current.symm⟩⟩
  rw [hear_one, hear_messages, if_pos]
  · rfl
  · simp [Connection.isConnecting, Connection.isOpen, connecting, held]

theorem ignored_hearing (c : Client) (k : Connection) (x : Report)
    (inside : c.screen.linked = true → ∃ link user, k.live? = some (link, user)) :
    Hearing c k x ⟨k, [], []⟩ [] := by
  refine ⟨inside, ?_, fun some => absurd rfl some⟩
  rw [if_neg]
  · rfl
  · rintro ⟨_, connecting, «open»⟩
    cases phase : k.phase <;> simp [Connection.isConnecting, Connection.isOpen, phase] at connecting «open»

theorem report_hearing (c : Client) (k : Connection) (sound : k.Sound) (x : Report)
    (inside : c.screen.linked = true → ∃ link user, k.live? = some (link, user)) :
    Hearing c k x (k.receive x) (k.hear x).signals := by
  have move := k.receive_moves sound x
  rw [Connection.hear]
  generalize k.receive x = o at move
  cases move with
  | sent _ _ _ _ asks => cases asks
  | ignored _ stale => exact ignored_hearing c k x inside
  | opened link user connecting => exact opened_hearing c k sound link user connecting
  | heard _ notice user live told =>
      have notClosed : [notice].contains Notice.closed = false := by
        simpa using (Connection.notice_plain x.event notice told).1.symm
      simp only [notClosed, Bool.false_and, Bool.false_eq_true, if_false, List.append_nil]
      exact told_hearing c k x notice ⟨_, _, live⟩ told
  | lost link user live => exact closed_hearing c k _ _ _ rfl (.inl rfl)
  | ended link closing => exact closed_hearing c k _ _ _ rfl (.inl rfl)
  | redialled link user url closing reached => exact closed_hearing c k _ _ _ rfl (.inr rfl)

theorem receive_frames (c : Connection) (sound : c.Sound) (x : Report) :
    (c.receive x).orders.filterMap Order.frame? = [] := by
  have move := c.receive_moves sound x
  generalize c.receive x = o at move
  cases move with
  | sent _ _ _ _ asks => cases asks
  | _ => rfl

namespace Run

theorem did_frames (r : Run) (d : Deed) (plain : d.order? = none) : (r.did d).frames = r.frames := by
  rw [frames, did_orders, plain, Option.toList_none, List.append_nil]
  rfl

theorem greeting_fits (r : Run) (linked : r.Linked) :
    r.client.greeting = match r.client.screen, r.client.pendingRoom with
      | .quickJoin, some room => [.sessionRequest, .joinSession room]
      | _, _ => [.sessionRequest] := by
  rw [Client.greeting, Client.roomToJoin]
  cases pending : r.client.pendingRoom with
  | none => cases r.client.screen <;> rfl
  | some room => cases r.client.screen <;> simp [Effect.message?, linked.room room pending]

def hearing (r : Run) (x : Report) : Run :=
  { (r.did (.took (.report x))).ask (r.connection.hear x).orders with
    connection := (r.connection.hear x).connection }

theorem hearing_frames (r : Run) (linked : r.Linked) (x : Report) :
    (r.hearing x).frames = r.frames := by
  have placed := ask_orders (r.did (.took (.report x))) (r.connection.hear x).orders
  have silent : (r.connection.hear x).orders.filterMap Order.frame? = [] :=
    receive_frames r.connection linked.sound x
  change ((r.did (.took (.report x))).ask (r.connection.hear x).orders).frames = r.frames
  rw [frames, placed, List.filterMap_append, silent, List.append_nil]
  exact did_frames r (.took (.report x)) rfl

theorem report_turn (r : Run) (linked : r.Linked) (x : Report) : Turn r (.report x) := by
  have told := report_hearing r.client r.connection linked.sound x linked.live
  have sound : (r.hearing x).connection.Sound := r.connection.call_sound linked.sound (.receive x)
  have out := signals_quiet (r.hearing x) (r.connection.hear x).signals
  have run : r.take .never (.report x) =
      (r.hearing x).hearAll .never (r.connection.hear x).signals := rfl
  have trace : r.carried (.report x) = (r.hearing x).heard (r.connection.hear x).signals := rfl
  refine ⟨?_, ?_, ?_, ?_⟩
  · rw [run]
    exact quiet_linked _ _ _ _ _ out
      ⟨sound, told.live, fun room held => linked.room room (hear_all_room r.client _ room held)⟩
  · rw [run, trace, frames, out.orders, List.filterMap_append, frames_of_orders]
    exact congrArg (· ++ _) (hearing_frames r linked x)
  · rw [trace, out.messages]
    change (r.client.hearAll _).2.filterMap _ = r.requests (.report x)
    rw [told.messages, greeting_fits r linked, requests]
    rfl
  · rw [trace]
    by_cases none : (((r.hearing x).heard (r.connection.hear x).signals).filterMap
        fun s => s.2.message?) = []
    · exact silent_delivers _ _ none
    · have asked : (r.client.hearAll (r.connection.hear x).signals).2.filterMap Effect.message? ≠ [] := by
        rw [out.messages] at none
        exact none
      obtain ⟨live, same⟩ := told.greeted asked
      rw [← same]
      exact live_delivers _ sound _ out.met fun _ => live

theorem command_carried (r : Run) (i : Input) (c : Command) (given : r.command? i = some c) :
    r.carried i = (r.did (.took i)).commanded c ∧
      r.requests i = r.client.screen.requests c := by
  cases i with
  | command d =>
      cases given
      exact ⟨rfl, rfl⟩
  | line text => exact ⟨by simp only [carried, given], by simp only [requests, given]⟩
  | report x => cases given
  | failure reason => cases given

theorem command_input_turn (r : Run) (linked : r.Linked) (i : Input) (c : Command)
    (given : r.command? i = some c) : Turn r i := by
  have ready : Linked (r.did (.took i)) := ⟨linked.sound, linked.live, linked.room⟩
  have run := command_taken r i c given
  obtain ⟨trace, asks⟩ := command_carried r i c given
  have turn := command_turn (r.did (.took i)) ready c
  refine ⟨by rw [run]; exact turn.linked, ?_, ?_, ?_⟩
  · rw [run, trace, turn.frames, did_frames r _ rfl]
  · rw [trace, asks]
    exact turn.messages
  · rw [trace]
    exact turn.delivered

theorem idle_line_turn (r : Run) (linked : r.Linked) (text : String)
    (idle : r.command? (.line text) = none) : Turn r (.line text) := by
  have trace : r.carried (.line text) = [] := by
    simp only [carried, idle]
  have asks : r.requests (.line text) = [] := by
    simp only [requests, idle]
  have took : (r.did (.took (.line text))).frames = r.frames := did_frames r _ rfl
  have run : r.take .never (.line text) = (r.did (.took (.line text))).line .never text := rfl
  rw [Turn, run, trace, asks]
  rcases idle_line (r.did (.took (.line text))) text idle with quiet | ⟨complaint, told⟩
  · rw [quiet]
    exact unasked r _ ⟨linked.sound, linked.live, linked.room⟩ took
  · rw [told]
    exact unasked r _ ⟨linked.sound, linked.live, linked.room⟩ ((did_frames _ _ rfl).trans took)

theorem turn_holds (r : Run) (linked : r.Linked) (i : Input) : Turn r i := by
  cases given : r.command? i with
  | some c => exact command_input_turn r linked i c given
  | none =>
      cases i with
      | command c => cases given
      | line text => exact idle_line_turn r linked text given
      | report x => exact report_turn r linked x
      | failure reason =>
          exact unasked r _ ⟨linked.sound, linked.live, linked.room⟩
            (did_frames r (.took (.failure reason)) rfl)

end Run
end DarkDrop
