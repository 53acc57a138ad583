import DarkDrop.Proofs.Play.Waiting

namespace DarkDrop
open Wire

namespace Run

-- Everything that an input can come to, where the run waits again after it. A
-- failed login and a failed link may also take the remembered user away.
inductive Move (r : Run) : Input → Client → Connection → Prop where
  | idled (i : Input) (cached : Option String)
      (unmoved : ∀ x, i = .report x → (r.connection.receive x).notices = [])
      (stays : r.command? i = some .abandonQuickJoin → r.client.screen ≠ .quickJoin) :
      Move r i { r.client with cachedUser := cached } r.connection
  | unreached (i : Input) (typed : String) (e : LinkError) (cached : Option String)
      (given : r.command? i = some (.login typed)) (named : (Text.trim typed).isEmpty = false)
      (failed : r.connection.endpoint.url (Text.trim typed) = .error e) :
      Move r i { r.client with link := .offline, cachedUser := cached } r.connection
  | redirected (i : Input) (typed : String) (link : LinkId)
      (given : r.command? i = some (.login typed)) (outside : r.client.screen.linked = false)
      (current : r.connection.link? = some link) :
      Move r i { r.client with link := .connecting }
        { r.connection with phase := .disconnecting link (some (Text.trim typed)) }
  | dialled (i : Input) (typed : String) (url : Url) (given : r.command? i = some (.login typed))
      (idle : r.connection.link? = none)
      (reached : r.connection.endpoint.url (Text.trim typed) = .ok url) :
      Move r i { r.client with link := .connecting } (r.connection.dialling (Text.trim typed))
  | parted (i : Input) (link : LinkId) (user : String) (given : r.command? i = some .disconnect)
      (live : r.connection.live? = some (link, user)) :
      Move r i (r.client.forget.move .disconnected)
        { r.connection with phase := .disconnecting link none }
  | abandoned (i : Input) (link : LinkId) (given : r.command? i = some .abandonQuickJoin)
      (quick : r.client.screen = .quickJoin) (current : r.connection.link? = some link) :
      Move r i ({ r.client with pendingRoom := none }.move .quickJoinAbandoned)
        { r.connection with phase := .disconnecting link none }
  | withdrawn (i : Input) (given : r.command? i = some .abandonQuickJoin)
      (quick : r.client.screen = .quickJoin) (idle : r.connection.link? = none) :
      Move r i ({ r.client with pendingRoom := none }.move .quickJoinAbandoned) r.connection
  | opened (link : LinkId) (user : String) (connecting : r.connection.phase = .connecting link user) :
      Move r (.report ⟨link, .opened⟩) (r.client.onConnected user).1
        { r.connection with phase := .open link user }
  | heard (link : LinkId) (user text : String) (live : r.connection.live? = some (link, user)) :
      Move r (.report ⟨link, .message text⟩)
        (r.client.hear (.ofNotice (Connection.noticeOfText text))).1 r.connection
  | troubled (link : LinkId) (user : String) (e : LinkError) (cached : Option String)
      (live : r.connection.live? = some (link, user)) :
      Move r (.report ⟨link, .error e⟩) { r.client with link := .offline, cachedUser := cached }
        r.connection
  | lost (link : LinkId) (current : r.connection.link? = some link) :
      Move r (.report ⟨link, .closed⟩) (r.client.hear .disconnected).1 r.connection.gone
  | redialled (link : LinkId) (user : String) (url : Url)
      (closing : r.connection.phase = .disconnecting link (some user))
      (reached : r.connection.endpoint.url user = .ok url) :
      Move r (.report ⟨link, .closed⟩) { (r.client.hear .disconnected).1 with link := .connecting }
        (r.connection.dialling user)

theorem calm_settles (r next : Run) (es : List Effect) (calm : ∀ e ∈ es, e.calm = true)
    (drained : r.drain .never es = (next, .going)) :
    next.client = r.client ∧ next.connection = r.connection := by
  have quiet := calm_quiet r es calm
  rw [drained] at quiet
  exact ⟨quiet.client, quiet.connection⟩

theorem led_settles (r next : Run) (e : Effect) (stays : e ≠ .quit)
    (ahead : ∀ d ∈ (r.step e).2, d.calm = true)
    (drained : r.drain .never [e, .render] = (next, .going)) :
    next.client = (r.step e).1.client ∧ next.connection = (r.step e).1.connection := by
  have quiet := (led_quiet r e [.render] stays (by simp [Effect.calm]) ahead).2
  rw [drained] at quiet
  exact ⟨quiet.client, quiet.connection⟩

theorem command_drained (r next : Run) (i : Input) (c : Command) (given : r.command? i = some c)
    (goes : r.next? i = some next) :
    drain .never { r.did (.took i) with client := (r.client.command c).1 } (r.client.command c).2 =
      (next, .going) :=
  (command_taken r i c given).symm.trans (next_taken r next i goes)

theorem calm_moves (r next : Run) (i : Input) (c : Command) (given : r.command? i = some c)
    (goes : r.next? i = some next) (cached : Option String) (es : List Effect)
    (answer : r.client.command c = ({ r.client with cachedUser := cached }, es))
    (calm : ∀ e ∈ es, e.calm = true) (stays : c = .abandonQuickJoin → r.client.screen ≠ .quickJoin) :
    Move r i next.client next.connection := by
  have drained := command_drained r next i c given goes
  rw [answer] at drained
  obtain ⟨client, connection⟩ := calm_settles _ next es calm drained
  rw [client, connection]
  refine .idled i cached (fun x report => ?_) fun abandons => stays ?_
  · rw [report] at given
    cases given
  · exact Option.some.inj (given.symm.trans abandons)

theorem led_moves (r next : Run) (i : Input) (c : Command) (given : r.command? i = some c)
    (goes : r.next? i = some next) (client : Client) (e : Effect) (stays : e ≠ .quit)
    (answer : r.client.command c = (client, [e, .render]))
    (ahead : ∀ d ∈ (client.hearAll (r.connection.perform e).signals).2, d.calm = true)
    (unshown : e.deed? client = none) :
    next.client = (client.hearAll (r.connection.perform e).signals).1 ∧
      next.connection = (r.connection.perform e).connection := by
  have drained := command_drained r next i c given goes
  rw [answer] at drained
  have performed : step { r.did (.took i) with client := client } e =
      perform { r.did (.took i) with client := client } e := by
    simp only [step, unshown]
  obtain ⟨same, connection⟩ := led_settles _ next e stays (by rw [performed]; exact ahead) drained
  rw [performed] at same connection
  exact ⟨same, connection⟩

theorem unreached_hears (c : Client) (reason : String) :
    ∃ cached, (c.hearAll [.connecting, .connectionFailed reason]).1 =
      { c with link := .offline, cachedUser := cached } := by
  by_cases quick : c.screen = .quickJoin
  · exact ⟨none, by simp [Client.hearAll, Client.hear, quick]⟩
  · exact ⟨c.cachedUser, by simp [Client.hearAll, Client.hear, quick]⟩

theorem login_moves (r next : Run) (linked : r.Linked) (i : Input) (typed : String)
    (given : r.command? i = some (.login typed)) (goes : r.next? i = some next)
    (on : r.client.accepts (.login typed) = true) (named : (Text.trim typed).isEmpty = false) :
    Move r i next.client next.connection := by
  have outside : r.client.screen.linked = false := by
    rcases (by simpa [Client.accepts] using on :
      r.client.screen = .login ∨ r.client.screen = .quickJoin) with same | same <;> rw [same] <;> rfl
  have answer : r.client.command (.login typed) =
      (r.client, [.connect (Text.trim typed), .render]) := by
    simp [Client.command, on, Client.execute, named]
  obtain ⟨_, _, calm, _⟩ := connect_hears r.client r.connection (Text.trim typed)
  obtain ⟨client, connection⟩ := led_moves r next i _ given goes r.client _ (by simp) answer calm rfl
  have move := r.connection.connect_moves linked.sound (Text.trim typed)
  rw [client, connection]
  simp only [Connection.perform]
  generalize r.connection.connect (Text.trim typed) = outcome at move
  cases move with
  | refused _ e failed =>
      obtain ⟨cached, heard⟩ := unreached_hears r.client e.message
      simp only [List.map_cons, List.map_nil, Signal.ofNotice]
      rw [heard]
      exact .unreached i typed e cached given named failed
  | superseded _ url link old reached live =>
      exact .redirected i typed link given outside (r.connection.live_link link old live)
  | redirected _ url link waiting reached closing =>
      exact .redirected i typed link given outside (r.connection.closing_link link waiting closing)
  | dialled _ url reached idle => exact .dialled i typed url given idle reached
  | sent _ message link user asks live => cases asks

theorem disconnect_parts (r next : Run) (linked : r.Linked) (i : Input)
    (given : r.command? i = some .disconnect) (goes : r.next? i = some next)
    (on : r.client.accepts .disconnect = true) :
    ∃ link user, r.connection.live? = some (link, user) ∧
      next.client = r.client.forget.move .disconnected ∧
      next.connection = { r.connection with phase := .disconnecting link none } := by
  have inside : r.client.screen.linked = true := by
    rcases (by simpa [Client.accepts] using on : (r.client.screen = .menu ∨ r.client.screen = .lobby) ∨
      r.client.screen = .game) with (same | same) | same <;> rw [same] <;> rfl
  obtain ⟨link, user, live⟩ := linked.live inside
  have answer : r.client.command .disconnect =
      (r.client.forget.move .disconnected, [.disconnect, .render]) := by
    simp [Client.command, on, Client.execute]
  obtain ⟨client, connection⟩ := led_moves r next i _ given goes _ .disconnect (by simp) answer
    (fun d member => by cases member) rfl
  have move := r.connection.disconnect_moves linked.sound
  rw [client, connection]
  simp only [Connection.perform]
  generalize r.connection.disconnect = outcome at move
  cases move with
  | dropped other old current => exact ⟨other, old, current, rfl, rfl⟩
  | cancelled other waiting closing => simp [Connection.live?, closing] at live
  | unneeded idle =>
      rw [r.connection.live_link link user live] at idle
      cases idle
  | sent _ message other old asks => cases asks

theorem disconnect_moves (r next : Run) (linked : r.Linked) (i : Input)
    (given : r.command? i = some .disconnect) (goes : r.next? i = some next)
    (on : r.client.accepts .disconnect = true) : Move r i next.client next.connection := by
  obtain ⟨link, user, live, client, connection⟩ := disconnect_parts r next linked i given goes on
  rw [client, connection]
  exact .parted i link user given live

theorem refused_settles (r next : Run) (i : Input) (c : Command) (given : r.command? i = some c)
    (goes : r.next? i = some next) (off : r.client.accepts c = false) :
    next.client = r.client ∧ next.connection = r.connection := by
  have answer : r.client.command c = (r.client,
      [.notify ("Not available on the " ++ r.client.screen.name ++ " screen."), .render]) := by
    rw [Client.command, if_neg (by simp [off])]
  have drained := command_drained r next i c given goes
  rw [answer] at drained
  exact calm_settles { r.did (.took i) with client := r.client } next _ (by simp [Effect.calm]) drained

theorem abandon_moves (r next : Run) (linked : r.Linked) (i : Input)
    (given : r.command? i = some .abandonQuickJoin) (goes : r.next? i = some next)
    (on : r.client.accepts .abandonQuickJoin = true) : Move r i next.client next.connection := by
  have quick : r.client.screen = .quickJoin := by simpa [Client.accepts] using on
  have answer : r.client.command .abandonQuickJoin =
      ({ r.client with pendingRoom := none }.move .quickJoinAbandoned, [.disconnect, .render]) := by
    simp [Client.command, on, Client.execute]
  obtain ⟨client, connection⟩ := led_moves r next i _ given goes _ .disconnect (by simp) answer
    (fun d member => by cases member) rfl
  have move := r.connection.disconnect_moves linked.sound
  rw [client, connection]
  simp only [Connection.perform]
  generalize r.connection.disconnect = outcome at move
  cases move with
  | dropped link user live =>
      exact .abandoned i link given quick (r.connection.live_link link user live)
  | cancelled link waiting closing =>
      exact .abandoned i link given quick (r.connection.closing_link link waiting closing)
  | unneeded idle => exact .withdrawn i given quick idle
  | sent _ message other old asks => cases asks

theorem command_moves (r next : Run) (linked : r.Linked) (i : Input) (c : Command)
    (given : r.command? i = some c) (goes : r.next? i = some next) :
    Move r i next.client next.connection := by
  by_cases on : r.client.accepts c = true
  · have answer : r.client.command c = r.client.execute c := by rw [Client.command, if_pos on]
    have calm := calm_moves r next i c given goes
    cases c with
    | login typed =>
        by_cases named : (Text.trim typed).isEmpty = true
        · exact calm r.client.cachedUser _ (by rw [answer, Client.execute, if_pos named])
            (by simp [Effect.calm]) (by simp)
        · exact login_moves r next linked i typed given goes on (by simpa using named)
    | disconnect => exact disconnect_moves r next linked i given goes on
    | abandonQuickJoin => exact abandon_moves r next linked i given goes on
    | quit =>
        have drained := command_drained r next i .quit given goes
        rw [answer, Client.execute, drain_quit] at drained
        cases congrArg Prod.snd drained
    | forgetCachedUser => exact calm none _ (by rw [answer]; rfl) (by simp [Effect.calm]) (by simp)
    | createSession | joinSession | leaveSession | startGame | play =>
        exact calm r.client.cachedUser _ (by rw [answer]; rfl) (by simp [Effect.calm]) (by simp)
  · refine calm_moves r next i c given goes r.client.cachedUser _
      (by rw [Client.command, if_neg on]) (by simp [Effect.calm]) ?_
    rintro rfl
    simpa [Client.accepts] using on

theorem troubled_hears (c : Client) (reason : String) :
    ∃ cached, (c.hear (.connectionFailed reason)).1 =
      { c with link := .offline, cachedUser := cached } := by
  by_cases quick : c.screen = .quickJoin
  · exact ⟨none, by simp [Client.hear, quick]⟩
  · exact ⟨c.cachedUser, by simp [Client.hear, quick]⟩

theorem report_settles (r next : Run) (x : Report) (goes : r.next? (.report x) = some next) :
    next.client = (r.client.hearAll (r.connection.hear x).signals).1 ∧
      next.connection = (r.connection.receive x).connection := by
  have quiet := signals_quiet (r.hearing x) (r.connection.hear x).signals
  have taken : (r.hearing x).hearAll .never (r.connection.hear x).signals = (next, .going) :=
    next_taken r next (.report x) goes
  rw [taken] at quiet
  exact ⟨quiet.client, quiet.connection⟩

theorem report_moves (r next : Run) (linked : r.Linked) (x : Report)
    (goes : r.next? (.report x) = some next) : Move r (.report x) next.client next.connection := by
  obtain ⟨client, connection⟩ := report_settles r next x goes
  have move := r.connection.receive_moves linked.sound x
  rw [client, connection, Connection.hear]
  generalize outcome : r.connection.receive x = o at move
  cases move with
  | sent _ _ _ _ asks => cases asks
  | ignored _ stale =>
      refine .idled (.report x) r.client.cachedUser (fun y same => ?_) fun given => by cases given
      cases same
      rw [outcome]
  | opened link user connecting => exact .opened link user connecting
  | heard _ notice user live told =>
      have open? : [notice].contains Notice.closed = false := by
        simpa using (Connection.notice_plain x.event notice told).1.symm
      simp only [open?, Bool.false_and, Bool.false_eq_true, if_false, List.append_nil,
        List.map_cons, List.map_nil, hear_one]
      obtain ⟨link, event⟩ := x
      cases event with
      | message text =>
          cases told
          exact .heard link user text live
      | error e =>
          cases told
          obtain ⟨cached, heard⟩ := troubled_hears r.client e.message
          rw [Signal.ofNotice, heard]
          exact .troubled link user e cached live
      | opened | closed => cases told
  | lost link user live => exact .lost link (r.connection.live_link link user live)
  | ended link closing => exact .lost link (r.connection.closing_link link none closing)
  | redialled link user url closing reached => exact .redialled link user url closing reached

theorem next_moves (r next : Run) (linked : r.Linked) (i : Input) (goes : r.next? i = some next) :
    Move r i next.client next.connection := by
  cases given : r.command? i with
  | some c => exact command_moves r next linked i c given goes
  | none =>
      have taken := next_taken r next i goes
      cases i with
      | command c => cases given
      | report x => exact report_moves r next linked x goes
      | failure reason => cases congrArg Prod.snd taken
      | line text =>
          have same : next.client = r.client ∧ next.connection = r.connection := by
            have run : (r.did (.took (.line text))).line .never text = (next, .going) := taken
            rcases idle_line (r.did (.took (.line text))) text given with quiet | ⟨complaint, told⟩
            · rw [quiet] at run
              cases run
              exact ⟨rfl, rfl⟩
            · rw [told] at run
              cases run
              exact ⟨rfl, rfl⟩
          rw [same.1, same.2]
          exact .idled _ r.client.cachedUser (fun x other => by cases other)
            fun abandons => by rw [given] at abandons; cases abandons

theorem next_linked (r next : Run) (linked : r.Linked) (i : Input) (goes : r.next? i = some next) :
    next.Linked := by
  have kept := (turn_holds r linked i).linked
  rw [next_taken r next i goes] at kept
  exact kept

end Run
end DarkDrop
