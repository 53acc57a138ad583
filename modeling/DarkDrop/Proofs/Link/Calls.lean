import DarkDrop.Link.Recorder
import Mathlib.Data.List.Induction

namespace DarkDrop
open Wire

-- The senders of one fixed request are `send` of that request. Only joining
-- looks at its argument before it sends.
inductive Call where
  | connect (user : String)
  | disconnect
  | send (message : ClientMessage)
  | join (room : String)
  | receive (report : Report)
deriving DecidableEq, Repr

def Call.message? : Call → Option ClientMessage
  | .send message => some message
  | .join room => if room.length = roomIdLength then some (.joinSession room) else none
  | _ => none

def Call.reports (link : LinkId) : Call → Bool
  | .receive report => report.link == link
  | _ => false

def LinkEvent.notice? : LinkEvent → Option Notice
  | .message text => some (Connection.noticeOfText text)
  | .error e => some (.error e)
  | .opened | .closed => none

namespace Connection

def new (endpoint : Endpoint) : Connection := { endpoint := endpoint }

def live? (c : Connection) : Option (LinkId × String) :=
  match c.phase with
  | .connecting link user | .open link user => some (link, user)
  | _ => none

def call (c : Connection) : Call → Outcome
  | .connect user => c.connect user
  | .disconnect => c.disconnect
  | .send message => c.send message
  | .join room =>
      match c.joinSession room with
      | .ok outcome => outcome
      | .error _ => { connection := c }
  | .receive report => c.receive report

def after (c : Connection) (calls : List Call) : Connection :=
  calls.foldl (fun c call => (c.call call).connection) c

def outcomes (c : Connection) : List Call → List (Call × Outcome)
  | [] => []
  | call :: rest => (call, c.call call) :: outcomes (c.call call).connection rest

def orders (c : Connection) (calls : List Call) : List Order :=
  (c.outcomes calls).flatMap fun turn => turn.2.orders

def notices (c : Connection) (calls : List Call) : List Notice :=
  (c.outcomes calls).flatMap fun turn => turn.2.notices

def noticesFrom (c : Connection) (link : LinkId) (calls : List Call) : List Notice :=
  ((c.outcomes calls).filter fun turn => turn.1.reports link).flatMap fun turn => turn.2.notices

theorem after_append (c : Connection) (earlier later : List Call) :
    c.after (earlier ++ later) = (c.after earlier).after later := by
  simp [after]

theorem outcomes_append (c : Connection) (earlier later : List Call) :
    c.outcomes (earlier ++ later) = c.outcomes earlier ++ (c.after earlier).outcomes later := by
  induction earlier generalizing c with
  | nil => rfl
  | cons call rest ih => simp [outcomes, after, ih]

theorem orders_append (c : Connection) (earlier later : List Call) :
    c.orders (earlier ++ later) = c.orders earlier ++ (c.after earlier).orders later := by
  simp [orders, outcomes_append]

theorem after_snoc (c : Connection) (calls : List Call) (call : Call) :
    c.after (calls ++ [call]) = ((c.after calls).call call).connection := by
  simp [after]

theorem orders_snoc (c : Connection) (calls : List Call) (call : Call) :
    c.orders (calls ++ [call]) = c.orders calls ++ ((c.after calls).call call).orders := by
  simp [orders, outcomes_append, outcomes]

theorem notices_snoc (c : Connection) (calls : List Call) (call : Call) :
    c.notices (calls ++ [call]) = c.notices calls ++ ((c.after calls).call call).notices := by
  simp [notices, outcomes_append, outcomes]

theorem notices_from_snoc (c : Connection) (link : LinkId) (calls : List Call) (call : Call) :
    c.noticesFrom link (calls ++ [call]) = c.noticesFrom link calls ++
      if call.reports link then ((c.after calls).call call).notices else [] := by
  by_cases heard : call.reports link = true <;>
    simp [noticesFrom, outcomes_append, outcomes, heard]

def dialling (c : Connection) (user : String) : Connection :=
  { c with phase := .connecting c.next user, held := some c.next, next := c.next + 1 }

def gone (c : Connection) : Connection := { c with phase := .closed, held := none }

-- What every reachable connection keeps. A user that waits for a link to close
-- had a URL when the wait began, and neither endpoint nor URL has changed since.
structure Sound (c : Connection) : Prop where
  held : c.held = c.link?
  newest : ∀ link, c.link? = some link → link + 1 = c.next
  positive : 0 < c.next
  waiting : ∀ link user, c.phase = .disconnecting link (some user) →
    ∃ url, c.endpoint.url user = .ok url

inductive Move (c : Connection) : Call → Outcome → Prop where
  | refused (user : String) (e : LinkError) (unreached : c.endpoint.url user = .error e) :
      Move c (.connect user) ⟨c, [.error e], []⟩
  | superseded (user : String) (url : Url) (link : LinkId) (old : String)
      (reached : c.endpoint.url user = .ok url) (live : c.live? = some (link, old)) :
      Move c (.connect user) ⟨{ c with phase := .disconnecting link (some user) }, [], [.close link]⟩
  | redirected (user : String) (url : Url) (link : LinkId) (waiting : Option String)
      (reached : c.endpoint.url user = .ok url) (closing : c.phase = .disconnecting link waiting) :
      Move c (.connect user) ⟨{ c with phase := .disconnecting link (some user) }, [], []⟩
  | dialled (user : String) (url : Url) (reached : c.endpoint.url user = .ok url)
      (idle : c.link? = none) : Move c (.connect user) ⟨c.dialling user, [], [.open c.next url]⟩
  | dropped (link : LinkId) (user : String) (live : c.live? = some (link, user)) :
      Move c .disconnect ⟨{ c with phase := .disconnecting link none }, [], [.close link]⟩
  | cancelled (link : LinkId) (waiting : Option String)
      (closing : c.phase = .disconnecting link waiting) :
      Move c .disconnect ⟨{ c with phase := .disconnecting link none }, [], []⟩
  | unneeded (idle : c.link? = none) : Move c .disconnect ⟨c, [], []⟩
  | sent (call : Call) (message : ClientMessage) (link : LinkId) (user : String)
      (asks : call.message? = some message) (live : c.live? = some (link, user)) :
      Move c call ⟨c, [], [.send link message.encode]⟩
  | unsent (message : ClientMessage) : Move c (.send message) ⟨c, [], []⟩
  | unjoined (room : String) : Move c (.join room) ⟨c, [], []⟩
  | ignored (report : Report) (stale : c.link? = some report.link → report.event ≠ .closed) :
      Move c (.receive report) ⟨c, [], []⟩
  | opened (link : LinkId) (user : String) (connecting : c.phase = .connecting link user) :
      Move c (.receive ⟨link, .opened⟩) ⟨{ c with phase := .open link user }, [.opened user], []⟩
  | heard (report : Report) (notice : Notice) (user : String)
      (live : c.live? = some (report.link, user)) (told : report.event.notice? = some notice) :
      Move c (.receive report) ⟨c, [notice], []⟩
  | lost (link : LinkId) (user : String) (live : c.live? = some (link, user)) :
      Move c (.receive ⟨link, .closed⟩) ⟨c.gone, [.closed], []⟩
  | ended (link : LinkId) (closing : c.phase = .disconnecting link none) :
      Move c (.receive ⟨link, .closed⟩) ⟨c.gone, [.closed], []⟩
  | redialled (link : LinkId) (user : String) (url : Url)
      (closing : c.phase = .disconnecting link (some user)) (reached : c.endpoint.url user = .ok url) :
      Move c (.receive ⟨link, .closed⟩) ⟨c.dialling user, [.closed], [.open c.next url]⟩

theorem live_link (c : Connection) (link : LinkId) (user : String)
    (live : c.live? = some (link, user)) : c.link? = some link := by
  rw [live?] at live
  rw [link?]
  split at live <;> simp_all

theorem closing_link (c : Connection) (link : LinkId) (waiting : Option String)
    (closing : c.phase = .disconnecting link waiting) : c.link? = some link := by
  simp [link?, closing]

theorem notice_plain (event : LinkEvent) (notice : Notice) (told : event.notice? = some notice) :
    notice ≠ .closed ∧ ∀ user, notice ≠ .opened user := by
  cases event with
  | message text =>
      cases told
      rw [noticeOfText]
      split <;> simp
  | error e =>
      cases told
      simp
  | opened => simp [LinkEvent.notice?] at told
  | closed => simp [LinkEvent.notice?] at told

theorem phase_cases (c : Connection) :
    (∃ link user, c.live? = some (link, user)) ∨
      (∃ link waiting, c.phase = .disconnecting link waiting) ∨ c.link? = none := by
  rw [live?, link?]
  cases c.phase with
  | idle => simp
  | connecting link user => simp
  | «open» link user => simp
  | disconnecting link waiting => simp
  | closed => simp

theorem live_phase (c : Connection) (link : LinkId) (user : String)
    (live : c.live? = some (link, user)) :
    c.phase = .connecting link user ∨ c.phase = .open link user := by
  rw [live?] at live
  split at live <;> simp_all

theorem live_held (c : Connection) (sound : c.Sound) (link : LinkId) (user : String)
    (live : c.live? = some (link, user)) : c.held = some link := by
  rw [sound.held, live_link c link user live]

theorem connect_moves (c : Connection) (sound : c.Sound) (user : String) :
    Move c (.connect user) (c.connect user) := by
  cases reached : c.endpoint.url user with
  | error e =>
      simp only [connect, reached]
      exact .refused user e reached
  | ok url =>
      rcases c.phase_cases with ⟨link, old, live⟩ | ⟨link, waiting, closing⟩ | idle
      · have orders : c.closeHeld = [.close link] := by
          simp [closeHeld, live_held c sound link old live]
        have outcome : c.connect user =
            ⟨{ c with phase := .disconnecting link (some user) }, [], [.close link]⟩ := by
          rcases live_phase c link old live with phase | phase <;>
            simp [connect, reached, phase, orders]
        rw [outcome]
        exact .superseded user url link old reached live
      · simp only [connect, reached, closing]
        exact .redirected user url link waiting reached closing
      · have outcome : c.connect user = ⟨c.dialling user, [], [.open c.next url]⟩ := by
          rw [link?] at idle
          split at idle <;> simp_all [connect, openLink, dialling]
        rw [outcome]
        exact .dialled user url reached idle

theorem disconnect_moves (c : Connection) (sound : c.Sound) : Move c .disconnect c.disconnect := by
  rcases c.phase_cases with ⟨link, user, live⟩ | ⟨link, waiting, closing⟩ | idle
  · have orders : c.closeHeld = [.close link] := by
      simp [closeHeld, live_held c sound link user live]
    have outcome : c.disconnect = ⟨{ c with phase := .disconnecting link none }, [], [.close link]⟩ := by
      rcases live_phase c link user live with phase | phase <;> simp [disconnect, phase, orders]
    rw [outcome]
    exact .dropped link user live
  · simp only [disconnect, closing]
    exact .cancelled link waiting closing
  · have outcome : c.disconnect = ⟨c, [], []⟩ := by
      rw [link?] at idle
      split at idle <;> simp_all [disconnect]
    rw [outcome]
    exact .unneeded idle

theorem send_live (c : Connection) (sound : c.Sound) (message : ClientMessage) (link : LinkId)
    (user : String) (live : c.live? = some (link, user)) :
    c.send message = ⟨c, [], [.send link message.encode]⟩ := by
  have held := live_held c sound link user live
  rcases live_phase c link user live with phase | phase <;> simp [send, phase, held]

theorem send_dead (c : Connection) (message : ClientMessage) (dead : c.live? = none) :
    c.send message = ⟨c, [], []⟩ := by
  rw [live?] at dead
  rw [send]
  split at dead <;> simp_all

theorem send_moves (c : Connection) (sound : c.Sound) (message : ClientMessage) :
    Move c (.send message) (c.send message) := by
  cases live : c.live? with
  | none =>
      rw [send_dead c message live]
      exact .unsent message
  | some held =>
      rw [send_live c sound message held.1 held.2 live]
      exact .sent _ message held.1 held.2 rfl live

theorem join_moves (c : Connection) (sound : c.Sound) (room : String) :
    Move c (.join room) (c.call (.join room)) := by
  by_cases fits : room.length = roomIdLength
  · have joined : c.call (.join room) = c.send (.joinSession room) := by
      simp [call, joinSession, checkRoomId, fits, Except.map]
    rw [joined]
    cases live : c.live? with
    | none =>
        rw [send_dead c _ live]
        exact .unjoined room
    | some held =>
        rw [send_live c sound _ held.1 held.2 live]
        exact .sent _ _ held.1 held.2 (if_pos fits) live
  · have refused : c.call (.join room) = ⟨c, [], []⟩ := by
      simp [call, joinSession, checkRoomId, fits, Except.map]
    rw [refused]
    exact .unjoined room

theorem receive_stale (c : Connection) (report : Report) (stale : c.link? ≠ some report.link) :
    c.receive report = ⟨c, [], []⟩ := by
  simp [receive, stale]

theorem receive_closing (c : Connection) (sound : c.Sound) (link : LinkId) (event : LinkEvent)
    (waiting : Option String) (closing : c.phase = .disconnecting link waiting) :
    Move c (.receive ⟨link, event⟩) (c.receive ⟨link, event⟩) := by
  have current := closing_link c link waiting closing
  by_cases last : event = .closed
  · subst last
    cases waiting with
    | none =>
        have outcome : c.receive ⟨link, .closed⟩ = ⟨c.gone, [.closed], []⟩ := by
          simp [receive, current, onClosed, closing, gone]
        rw [outcome]
        exact .ended link closing
    | some user =>
        obtain ⟨url, reached⟩ := sound.waiting link user closing
        have outcome : c.receive ⟨link, .closed⟩ = ⟨c.dialling user, [.closed], [.open c.next url]⟩ := by
          simp [receive, current, onClosed, closing, openLink, reached, dialling]
        rw [outcome]
        exact .redialled link user url closing reached
  · have outcome : c.receive ⟨link, event⟩ = ⟨c, [], []⟩ := by
      simp [receive, isClosing, closing, last]
    rw [outcome]
    exact .ignored _ fun _ => last

theorem receive_live (c : Connection) (link : LinkId) (event : LinkEvent) (user : String)
    (live : c.live? = some (link, user)) :
    Move c (.receive ⟨link, event⟩) (c.receive ⟨link, event⟩) := by
  have current := live_link c link user live
  have notClosing : c.isClosing = false := by
    rcases live_phase c link user live with phase | phase <;> simp [isClosing, phase]
  cases event with
  | message text =>
      have outcome : c.receive ⟨link, .message text⟩ = ⟨c, [noticeOfText text], []⟩ := by
        simp [receive, current, notClosing]
      rw [outcome]
      exact .heard ⟨link, .message text⟩ _ user live rfl
  | error e =>
      have outcome : c.receive ⟨link, .error e⟩ = ⟨c, [.error e], []⟩ := by
        simp [receive, current, notClosing]
      rw [outcome]
      exact .heard ⟨link, .error e⟩ _ user live rfl
  | opened =>
      rcases live_phase c link user live with phase | phase
      · have outcome : c.receive ⟨link, .opened⟩ =
            ⟨{ c with phase := .open link user }, [.opened user], []⟩ := by
          simp [receive, current, notClosing, onOpened, phase]
        rw [outcome]
        exact .opened link user phase
      · have outcome : c.receive ⟨link, .opened⟩ = ⟨c, [], []⟩ := by
          simp [receive, current, notClosing, onOpened, phase]
        rw [outcome]
        exact .ignored _ fun _ => by simp
  | closed =>
      have outcome : c.receive ⟨link, .closed⟩ = ⟨c.gone, [.closed], []⟩ := by
        rcases live_phase c link user live with phase | phase <;>
          simp [receive, current, notClosing, onClosed, phase, gone]
      rw [outcome]
      exact .lost link user live

theorem receive_moves (c : Connection) (sound : c.Sound) (report : Report) :
    Move c (.receive report) (c.receive report) := by
  by_cases current : c.link? = some report.link
  · rcases c.phase_cases with ⟨link, user, live⟩ | ⟨link, waiting, closing⟩ | idle
    · have same : link = report.link := by
        simpa [live_link c link user live] using current
      subst same
      exact receive_live c report.link report.event user live
    · have same : link = report.link := by
        simpa [closing_link c link waiting closing] using current
      subst same
      exact receive_closing c sound report.link report.event waiting closing
    · simp [idle] at current
  · rw [receive_stale c report current]
    exact .ignored report fun again => absurd again current

theorem call_moves (c : Connection) (sound : c.Sound) (call : Call) : Move c call (c.call call) := by
  cases call with
  | connect user => exact connect_moves c sound user
  | disconnect => exact disconnect_moves c sound
  | send message => exact send_moves c sound message
  | join room => exact join_moves c sound room
  | receive report => exact receive_moves c sound report

theorem new_sound (endpoint : Endpoint) : (new endpoint).Sound :=
  ⟨rfl, by simp [new, link?], by simp [new], by simp [new]⟩

theorem closing_sound (c : Connection) (sound : c.Sound) (link : LinkId) (waiting : Option String)
    (current : c.link? = some link)
    (reached : ∀ user, waiting = some user → ∃ url, c.endpoint.url user = .ok url) :
    Sound { c with phase := .disconnecting link waiting } := by
  refine ⟨?_, ?_, sound.positive, ?_⟩
  · simp [link?, sound.held.trans current]
  · simpa [link?] using sound.newest link current
  · rintro other user phase
    cases phase
    exact reached user rfl

theorem dialling_sound (c : Connection) (user : String) : (c.dialling user).Sound :=
  ⟨rfl, by simp [dialling, link?], by simp [dialling], by simp [dialling]⟩

theorem gone_sound (c : Connection) (sound : c.Sound) : c.gone.Sound :=
  ⟨rfl, by simp [gone, link?], sound.positive, by simp [gone]⟩

theorem opened_sound (c : Connection) (sound : c.Sound) (link : LinkId) (user : String)
    (connecting : c.phase = .connecting link user) : Sound { c with phase := .open link user } := by
  have current : c.link? = some link := by simp [link?, connecting]
  refine ⟨?_, ?_, sound.positive, by simp⟩
  · simp [link?, sound.held.trans current]
  · simpa [link?] using sound.newest link current

theorem move_sound (c : Connection) (sound : c.Sound) (call : Call) (outcome : Outcome)
    (move : Move c call outcome) : outcome.connection.Sound := by
  cases move with
  | superseded user url link old reached live =>
      exact closing_sound c sound link _ (live_link c link old live) fun _ same => by
        cases same
        exact ⟨url, reached⟩
  | redirected user url link waiting reached closing =>
      exact closing_sound c sound link _ (closing_link c link waiting closing) fun _ same => by
        cases same
        exact ⟨url, reached⟩
  | dropped link user live =>
      exact closing_sound c sound link none (live_link c link user live) (by simp)
  | cancelled link waiting closing =>
      exact closing_sound c sound link none (closing_link c link waiting closing) (by simp)
  | opened link user connecting => exact opened_sound c sound link user connecting
  | dialled => exact dialling_sound c _
  | redialled => exact dialling_sound c _
  | lost => exact gone_sound c sound
  | ended => exact gone_sound c sound
  | refused | unneeded | sent | unsent | unjoined | ignored | heard => exact sound

theorem call_sound (c : Connection) (sound : c.Sound) (call : Call) :
    (c.call call).connection.Sound :=
  move_sound c sound call _ (c.call_moves sound call)

theorem after_sound (c : Connection) (sound : c.Sound) (calls : List Call) : (c.after calls).Sound := by
  induction calls generalizing c with
  | nil => exact sound
  | cons call rest ih => exact ih _ (call_sound c sound call)

theorem move_endpoint (c : Connection) (call : Call) (outcome : Outcome)
    (move : Move c call outcome) : outcome.connection.endpoint = c.endpoint := by
  cases move <;> rfl

theorem after_endpoint (c : Connection) (sound : c.Sound) (calls : List Call) :
    (c.after calls).endpoint = c.endpoint := by
  induction calls generalizing c with
  | nil => rfl
  | cons call rest ih =>
      exact (ih _ (call_sound c sound call)).trans
        (move_endpoint c call _ (c.call_moves sound call))

end Connection
end DarkDrop
