import DarkDrop.Proofs.Play.History

namespace DarkDrop
open Wire

theorem Endpoint.url_named (e : Endpoint) (user : String) (url : Url) (reached : e.url user = .ok url) :
    user ≠ "" := by
  rintro rfl
  cases reached

namespace Run

-- What a link reports of itself. Links are numbered from 1 as they are opened, and
-- a report that bears the number of a link yet to be opened is not of that link.
def reportOf (link : LinkId) (t : Run × Input) : Option LinkEvent :=
  match t.2 with
  | .report x =>
      if x.link = link ∧ 0 < link ∧ link < t.1.connection.next then some x.event else none
  | _ => none

def reportsOf (ts : List (Run × Input)) (link : LinkId) : List LinkEvent := ts.filterMap (reportOf link)

-- Every link reports that it has opened before it passes a message on. That its
-- end comes last is not asked for: after it, no report of the link is heard.
def OpensFirst (ts : List (Run × Input)) : Prop :=
  ∀ link before text after, reportsOf ts link = before ++ .message text :: after → .opened ∈ before

theorem reports_snoc (ts : List (Run × Input)) (t : Run × Input) (link : LinkId) :
    reportsOf (ts ++ [t]) link = reportsOf ts link ++ (reportOf link t).toList := by
  cases told : reportOf link t <;> simp [reportsOf, told]

theorem opens_first_earlier (ts : List (Run × Input)) (t : Run × Input)
    (orderly : OpensFirst (ts ++ [t])) : OpensFirst ts := by
  intro link before text after split
  refine orderly link before text (after ++ (reportOf link t).toList) ?_
  rw [reports_snoc, split, List.append_assoc, List.cons_append]

theorem report_given (t : Run × Input) (link : LinkId) (event : LinkEvent)
    (reported : reportOf link t = some event) :
    t.2 = .report ⟨link, event⟩ ∧ 0 < link ∧ link < t.1.connection.next := by
  rw [reportOf] at reported
  split at reported
  · rename_i x given
    split at reported
    · rename_i own
      obtain ⟨same, positive, older⟩ := own
      cases reported
      subst same
      exact ⟨given, positive, older⟩
    · cases reported
  · cases reported

theorem reports_mem (ts : List (Run × Input)) (link : LinkId) (event : LinkEvent)
    (told : event ∈ reportsOf ts link) :
    ∃ t ∈ ts, t.2 = .report ⟨link, event⟩ ∧ link < t.1.connection.next := by
  obtain ⟨t, member, reported⟩ := List.mem_filterMap.mp told
  obtain ⟨given, _, older⟩ := report_given t link event reported
  exact ⟨t, member, given, older⟩

theorem opens_first_of (r w : Run) (is : List Input) (waits : r.waiting? is = some w)
    (greeted : ∀ link text, .report ⟨link, .message text⟩ ∈ is →
      (reportsOf (r.handled is) link).head? = some .opened) : OpensFirst (r.handled is) := by
  intro link before text after split
  have told : .message text ∈ reportsOf (r.handled is) link := by simp [split]
  obtain ⟨t, member, given, _⟩ := reports_mem _ link _ told
  have first := greeted link text (by
    rw [← handled_inputs r w is waits, ← given]
    exact List.mem_map_of_mem member)
  rw [split] at first
  cases before with
  | nil => cases first
  | cons event rest =>
      cases first
      simp

theorem report_own (ts : List (Run × Input)) (r : Run) (linked : r.Linked) (aged : Aged ts r.connection)
    (link : LinkId) (event : LinkEvent) (current : r.connection.link? = some link) :
    reportOf link (r, .report ⟨link, event⟩) = some event :=
  if_pos ⟨rfl, aged.numbered link current, r.connection.current_old linked.sound link current⟩

theorem message_open (ts : List (Run × Input)) (r : Run) (linked : r.Linked)
    (aged : Aged ts r.connection) (link : LinkId) (user text : String)
    (live : r.connection.live? = some (link, user))
    (orderly : OpensFirst (ts ++ [(r, .report ⟨link, .message text⟩)])) :
    r.connection.phase = .open link user := by
  rcases r.connection.live_phase link user live with connecting | up
  · have own := report_own ts r linked aged link (.message text) (r.connection.live_link link user live)
    have opened := orderly link (reportsOf ts link) text [] (by rw [reports_snoc, own]; rfl)
    obtain ⟨t, member, given, older⟩ := reports_mem ts link .opened opened
    exact absurd given (aged.opening link user connecting t member older).2
  · exact up

structure Fresh (c : Client) (k : Connection) : Prop where
  away : k.link? = none ∨ k.isConnecting = true → c.session = {} ∧ c.game = {}
  named : ∀ link user, k.live? = some (link, user) → user ≠ ""
  online : ∀ link user, k.phase = .open link user → c.session.userId = user

theorem closing_fresh (c : Client) (k : Connection) (link : LinkId) (waiting : Option String) :
    Fresh c { k with phase := .disconnecting link waiting } :=
  ⟨by simp [Connection.link?, Connection.isConnecting], by simp [Connection.live?], by simp⟩

theorem dialling_fresh (c : Client) (k : Connection) (user : String) (named : user ≠ "")
    (session : c.session = {}) (game : c.game = {}) : Fresh c (k.dialling user) := by
  refine ⟨fun _ => ⟨session, game⟩, fun link owner live => ?_, fun link owner phase => ?_⟩
  · cases live
    exact named
  · cases phase

theorem gone_fresh (c : Client) (k : Connection) (session : c.session = {}) (game : c.game = {})
    (gone : k.link? = none) : Fresh c k := by
  refine ⟨fun _ => ⟨session, game⟩, fun link user live => ?_, fun link user phase => ?_⟩
  · rw [k.live_link link user live] at gone
    cases gone
  · simp [Connection.link?, phase] at gone

theorem same_fresh (b c : Client) (k : Connection) (fresh : Fresh b k) (session : c.session = b.session)
    (game : c.game = b.game) : Fresh c k :=
  ⟨by rw [session, game]; exact fresh.away, fresh.named, by rw [session]; exact fresh.online⟩

theorem heard_fresh (b c : Client) (k : Connection) (link : LinkId) (user : String) (fresh : Fresh b k)
    (up : k.phase = .open link user) (same : c.session.userId = b.session.userId) : Fresh c k := by
  refine ⟨?_, fresh.named, by rw [same]; exact fresh.online⟩
  simp [Connection.link?, Connection.isConnecting, up]

theorem opened_fresh (b : Client) (k : Connection) (link : LinkId) (user : String) (fresh : Fresh b k)
    (connecting : k.phase = .connecting link user) :
    Fresh (b.onConnected user).1 { k with phase := .open link user } := by
  refine ⟨by simp [Connection.link?, Connection.isConnecting], fun other owner live => ?_, ?_⟩
  · cases live
    exact fresh.named link user (by simp [Connection.live?, connecting])
  · intro other owner phase
    cases phase
    rfl

theorem move_fresh (ts : List (Run × Input)) (r : Run) (i : Input) (c : Client) (k : Connection)
    (linked : r.Linked) (aged : Aged ts r.connection) (fresh : Fresh r.client r.connection)
    (orderly : OpensFirst (ts ++ [(r, i)])) (move : Move r i c k) : Fresh c k := by
  cases move with
  | idled | unreached | withdrawn | troubled => exact same_fresh r.client _ _ fresh rfl rfl
  | redirected _ typed link given outside current => exact closing_fresh _ _ link _
  | parted _ link user given live => exact closing_fresh _ _ link none
  | abandoned _ link given quick current => exact closing_fresh _ _ link none
  | dialled _ typed url given idle reached =>
      obtain ⟨session, game⟩ := fresh.away (.inl idle)
      exact dialling_fresh _ _ _ (r.connection.endpoint.url_named _ url reached) session game
  | opened link user connecting => exact opened_fresh r.client _ link user fresh connecting
  | heard link user text live =>
      exact heard_fresh r.client _ _ link user fresh (message_open ts r linked aged link user text live orderly)
        (text_spares r.client text).user
  | lost link current =>
      exact gone_fresh _ _ rfl rfl rfl
  | redialled link user url closing reached =>
      exact dialling_fresh _ _ _ (r.connection.endpoint.url_named _ url reached) rfl rfl

theorem start_session (c : Client) : c.start.1.session = c.session ∧ c.start.1.game = c.game := by
  rw [Client.start]
  split <;> exact ⟨rfl, rfl⟩

theorem start_fresh (endpoint : Endpoint) (room memory : Option String) :
    Fresh ((new endpoint room memory).start .never).1.client
      ((new endpoint room memory).start .never).1.connection := by
  rw [start_client, start_connection]
  obtain ⟨session, game⟩ := start_session (new endpoint room memory).client
  exact gone_fresh _ _ session game rfl

theorem move_opens (r : Run) (i : Input) (c : Client) (k : Connection)
    (fresh : Fresh r.client r.connection) (connecting : r.connection.isConnecting = true)
    (link : LinkId) (user : String) (up : k.phase = .open link user) (move : Move r i c k) :
    c.session = { userId := user } ∧ c.game = {} := by
  obtain ⟨session, game⟩ := fresh.away (.inr connecting)
  cases move with
  | opened =>
      cases up
      refine ⟨?_, game⟩
      change { r.client.session with userId := user } = _
      rw [session]
  | idled | unreached | withdrawn | heard | troubled =>
      simp [Connection.isConnecting, up] at connecting
  | redirected | dialled | parted | abandoned | lost | redialled => cases up

def OpenedEmpty (ts : List (Run × Input)) (w : Run) : Prop :=
  ∀ t, ts.getLast? = some t → t.1.connection.isConnecting = true →
    ∀ link user, w.connection.phase = .open link user →
      w.client.session = { userId := user } ∧ w.client.game = {}

theorem waiting_fresh (endpoint : Endpoint) (room memory : Option String) (is : List Input) (w : Run)
    (orderly : OpensFirst ((new endpoint room memory).handled is))
    (waits : (new endpoint room memory).waiting? is = some w) :
    Fresh w.client w.connection ∧ OpenedEmpty ((new endpoint room memory).handled is) w := by
  have kept := waiting_keeps
    (fun ts w => OpensFirst ts → Fresh w.client w.connection ∧ OpenedEmpty ts w) endpoint room memory
    ?_ ?_ is w waits
  · exact kept.2.2 orderly
  · intro _
    exact ⟨start_fresh endpoint room memory, fun t last => by cases last⟩
  · intro ts r i next linked aged earlier goes orderly
    have fresh := (earlier (opens_first_earlier ts _ orderly)).1
    have move := next_moves r next linked i goes
    refine ⟨move_fresh ts r i _ _ linked aged fresh orderly move, fun t last connecting link user up => ?_⟩
    rw [List.getLast?_concat] at last
    cases last
    exact move_opens r i _ _ fresh connecting link user up move

structure Separate (ts : List (Run × Input)) (w : Run) : Prop where
  away : w.connection.link? = none ∨ w.connection.isConnecting = true →
    w.client.session = {} ∧ w.client.game = {}
  online : ∀ link user, w.connection.phase = .open link user →
    user ≠ "" ∧ w.client.session.userId = user
  opened : OpenedEmpty ts w

theorem logins_separate (endpoint : Endpoint) (room memory : Option String) (is : List Input) (w : Run)
    (orderly : OpensFirst ((new endpoint room memory).handled is))
    (waits : (new endpoint room memory).waiting? is = some w) :
    Separate ((new endpoint room memory).handled is) w := by
  obtain ⟨fresh, opened⟩ := waiting_fresh endpoint room memory is w orderly waits
  refine ⟨fresh.away, fun link user up => ⟨?_, fresh.online link user up⟩, opened⟩
  exact fresh.named link user (by simp [Connection.live?, up])

def changeOfUser : List Input :=
  [.command (.login "alice"), .report ⟨1, .opened⟩,
    .report ⟨1, .message ServerMessage.cannotJoinInProgress.encode⟩, .command .disconnect,
    .command (.login "bob"), .report ⟨1, .closed⟩, .report ⟨2, .opened⟩]

theorem change_of_user_separate :
    ∃ w, (new {} none none).waiting? changeOfUser = some w ∧
      OpensFirst ((new {} none none).handled changeOfUser) ∧ w.connection.phase = .open 2 "bob" ∧
      Separate ((new {} none none).handled changeOfUser) w := by
  have came : ((new {} none none).waiting? changeOfUser).map (fun w => w.connection.phase) =
      some (.open 2 "bob") := by
    decide +kernel
  have first : (reportsOf ((new {} none none).handled changeOfUser) 1).head? = some .opened := by
    decide +kernel
  obtain ⟨w, waits, shown⟩ := Option.map_eq_some_iff.mp came
  have orderly : OpensFirst ((new {} none none).handled changeOfUser) := by
    refine opens_first_of _ w changeOfUser waits fun link text told => ?_
    have one : link = 1 := by
      simp only [changeOfUser, List.mem_cons, Input.report.injEq, Report.mk.injEq] at told
      simp_all
    rw [one]
    exact first
  exact ⟨w, waits, orderly, shown, logins_separate {} none none changeOfUser w orderly waits⟩

end Run
end DarkDrop
