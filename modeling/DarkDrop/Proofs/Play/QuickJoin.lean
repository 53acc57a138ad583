import DarkDrop.Proofs.Play.LinkStatus
import DarkDrop.Proofs.Play.Logins
import DarkDrop.Terminal.Page

namespace DarkDrop
open Wire

namespace Run

theorem traced_frames (link : Option LinkId) (trace : List (Run × Effect))
    (delivered : ∀ s ∈ trace, Delivers link s) :
    trace.flatMap framesOf =
      (trace.filterMap fun s => s.2.message?).filterMap fun m => link.map fun l => (l, m.encode) := by
  induction trace with
  | nil => rfl
  | cons s trace ih =>
      have rest := ih fun later member => delivered later (by simp [member])
      rw [List.flatMap_cons, rest, List.filterMap_cons]
      cases asks : s.2.message? with
      | none => rw [silent_frames s asks]; rfl
      | some m =>
          obtain ⟨_, l, rfl, sent⟩ := delivered s (by simp) m asks
          simp [framesOf, sent, Order.frame?]

theorem next_frames (r next : Run) (linked : r.Linked) (i : Input) (goes : r.next? i = some next) :
    next.frames = r.frames ++
      (r.requests i).filterMap fun m => r.connection.link?.map fun l => (l, m.encode) := by
  have turn := turn_holds r linked i
  have sent := turn.frames
  rw [traced_frames _ _ turn.delivered, turn.messages, next_taken r next i goes] at sent
  exact sent

theorem report_goes (r : Run) (x : Report) : ∃ next, r.next? (.report x) = some next := by
  have going := (signals_quiet (r.hearing x) (r.connection.hear x).signals).going
  have taken : r.take .never (.report x) =
      (r.hearing x).hearAll .never (r.connection.hear x).signals := rfl
  refine ⟨(r.take .never (.report x)).1, ?_⟩
  rw [next?]
  generalize (r.hearing x).hearAll .never (r.connection.hear x).signals = out at going taken
  obtain ⟨next, progress⟩ := out
  cases going
  rw [taken]

def askFrame (link : LinkId) : LinkId × String := (link, ClientMessage.sessionRequest.encode)

def joinFrame (room : String) (link : LinkId) : LinkId × String :=
  (link, (ClientMessage.joinSession room).encode)

def greetings (room : String) : List LinkId → List (LinkId × String)
  | [] => []
  | first :: later => askFrame first :: joinFrame room first :: later.map askFrame

theorem greetings_snoc (room : String) (links : List LinkId) (link : LinkId) :
    greetings room (links ++ [link]) =
      greetings room links ++ askFrame link :: if links = [] then [joinFrame room link] else [] := by
  cases links <;> simp [greetings]

theorem join_ne_ask (room : String) (link other : LinkId) : joinFrame room link ≠ askFrame other := by
  intro same
  have text := congrArg (fun f => ClientMessage.decode f.2) same
  simp only [joinFrame, askFrame, client_decode_encode] at text
  cases text

theorem joined_iff (room : String) (links : List LinkId) (link : LinkId) :
    joinFrame room link ∈ greetings room links ↔ links.head? = some link := by
  cases links with
  | nil => simp [greetings]
  | cons first later =>
      have others : joinFrame room link ∉ later.map askFrame := by
        intro member
        obtain ⟨other, _, same⟩ := List.mem_map.mp member
        exact join_ne_ask room link other same.symm
      simp only [greetings, List.mem_cons, join_ne_ask, others, false_or, or_false, List.head?_cons,
        Option.some.injEq]
      exact ⟨fun same => (congrArg Prod.fst same).symm, fun same => by rw [same]⟩

theorem quick_requests (r : Run) (i : Input) (quick : r.client.screen = .quickJoin) :
    r.requests i = (opening? (r, i)).toList.flatMap fun _ =>
      .sessionRequest :: r.client.pendingRoom.toList.map .joinSession := by
  cases i with
  | report x =>
      by_cases opens : r.opens x
      · cases room : r.client.pendingRoom <;> simp [requests, opening?, opens, quick, room]
      · simp [requests, opening?, opens]
  | command | line | failure =>
      simp only [requests, opening?, quick, Option.toList_none, List.flatMap_nil]
      split <;> rfl

-- A client on quick join. It holds its room until a link opens, and is only ever
-- online over a link that is open.
structure Joining (room : String) (ts : List (Run × Input)) (r : Run) : Prop where
  pending : r.client.pendingRoom = if openings ts = [] then some room else none
  online : r.client.link = .online → ∃ link user, r.connection.phase = .open link user
  frames : r.frames = greetings room (openings ts)

theorem joining_frames (room : String) (ts : List (Run × Input)) (r next : Run) (i : Input)
    (linked : r.Linked) (quick : r.client.screen = .quickJoin) (joining : Joining room ts r)
    (goes : r.next? i = some next) : next.frames = greetings room (openings (ts ++ [(r, i)])) := by
  rw [next_frames r next linked i goes, joining.frames, quick_requests r i quick, openings_snoc]
  cases opens : opening? (r, i) with
  | none => simp
  | some link =>
      obtain ⟨_, user, connecting⟩ := (opening_iff r linked.sound i link).mp opens
      have current : r.connection.link? = some link := by simp [Connection.link?, connecting]
      rw [Option.toList_some, greetings_snoc, current, joining.pending]
      by_cases first : openings ts = [] <;> simp [first, askFrame, joinFrame]

theorem move_room (r : Run) (i : Input) (c : Client) (k : Connection) (linked : r.Linked)
    (move : Move r i c k) (quick : c.screen = .quickJoin) :
    c.pendingRoom = if opening? (r, i) = none then r.client.pendingRoom else none := by
  have before := move_quick r i c k move quick
  cases move with
  | idled _ cached unmoved stays => rw [if_pos (unmoved_unopened r linked.sound i unmoved)]
  | unreached _ typed e cached given | redirected _ typed link given | dialled _ typed url given =>
      rw [if_pos (command_unopened r i _ given)]
  | parted _ link user given => rw [if_pos (command_unopened r i _ given)]; rfl
  | abandoned | withdrawn => simp [Client.move, before, Screen.after] at quick
  | opened link user connecting =>
      have now := opened_opens r linked.sound link user connecting
      rw [if_neg (by simp [now])]
      simp [Client.onConnected, Client.move, before]
  | heard link user text live =>
      rw [if_pos (event_unopened r ⟨link, .message text⟩ (by simp)), (text_spares r.client text).room]
  | troubled link user e cached live => rw [if_pos (event_unopened r ⟨link, .error e⟩ (by simp))]
  | lost link current => rw [if_pos (event_unopened r ⟨link, .closed⟩ (by simp))]; rfl
  | redialled link user url closing reached => rw [if_pos (event_unopened r ⟨link, .closed⟩ (by simp))]; rfl

theorem move_online (r : Run) (i : Input) (c : Client) (k : Connection)
    (before : r.client.link = .online → ∃ link user, r.connection.phase = .open link user)
    (move : Move r i c k) (quick : c.screen = .quickJoin) (online : c.link = .online) :
    ∃ link user, k.phase = .open link user := by
  have screen := move_quick r i c k move quick
  cases move with
  | opened link user connecting => exact ⟨link, user, rfl⟩
  | idled => exact before online
  | heard link user text live => exact before ((text_spares r.client text).link.symm.trans online)
  | unreached | redirected | dialled | troubled | lost | redialled => cases online
  | parted | abandoned | withdrawn => simp [Client.move, Client.forget, screen, Screen.after] at quick

theorem next_joining (room : String) (ts : List (Run × Input)) (r next : Run) (i : Input)
    (linked : r.Linked) (before : r.client.screen = .quickJoin → Joining room ts r)
    (goes : r.next? i = some next) (quick : next.client.screen = .quickJoin) :
    Joining room (ts ++ [(r, i)]) next := by
  have move := next_moves r next linked i goes
  have screen := move_quick r i _ _ move quick
  have joining := before screen
  refine ⟨?_, move_online r i _ _ joining.online move quick,
    joining_frames room ts r next i linked screen joining goes⟩
  rw [move_room r i _ _ linked move quick, joining.pending, openings_snoc]
  cases opens : opening? (r, i) <;> simp

theorem start_joining (endpoint : Endpoint) (room : String) (memory : Option String)
    (fits : room.length = roomIdLength) :
    Joining room [] ((new endpoint (some room) memory).start .never).1 := by
  have frames := (start_frames (new endpoint (some room) memory) rfl).2
  have client : ((new endpoint (some room) memory).start .never).1.client =
      (new endpoint (some room) memory).client := by
    rw [start_client, Client.start]
    simp [new, Client.new, Client.setCachedUser, checkRoomId, fits]
  exact ⟨by rw [client]; rfl, fun online => (by rw [client] at online; cases online), frames⟩

def waitingLine (user : String) : String := "Connected as " ++ user ++ ". Waiting for the room..."

theorem starts_with (start middle rest : String) (long : 8 ≤ start.toList.length) :
    (start ++ middle ++ rest).toList.take 8 = start.toList.take 8 := by
  rw [String.append_assoc, String.toList_append, List.take_append_of_le_length long]

-- The lines of the page differ in how they begin.
theorem waiting_line (c : Client) (base : Url) (quick : c.screen = .quickJoin) (user : String)
    (line : waitingLine user ∈ Page.bodyOf c base) : c.link = .online := by
  have other : ∀ s : String, s.toList.take 8 ≠ "Connecte".toList → waitingLine user ≠ s := by
    rintro s differs rfl
    refine differs ?_
    rw [waitingLine, starts_with _ _ _ (by decide)]
    decide
  rw [Page.bodyOf, quick] at line
  simp only [Page.quickJoinBody, List.mem_cons, List.not_mem_nil, or_false] at line
  rcases line with first | second
  · refine absurd first (other _ ?_)
    split
    · rw [starts_with _ _ _ (by decide)]
      decide
    · decide
  · by_contra offline
    refine absurd second (other _ ?_)
    split
    · rw [starts_with _ _ _ (by decide)]
      decide
    · decide
    · decide
    · contradiction

structure AsksOnce (room : String) (ts : List (Run × Input)) (w : Run) : Prop where
  greets : ∀ link user, w.connection.phase = .connecting link user →
    ∃ next, w.next? (.report ⟨link, .opened⟩) = some next ∧
      next.frames = w.frames ++ askFrame link :: if openings ts = [] then [joinFrame room link] else []
  waits : ∀ base user, waitingLine user ∈ Page.bodyOf w.client base →
    ∃ link owner, w.connection.phase = .open link owner ∧
      (joinFrame room link ∈ w.frames ↔ (openings ts).head? = some link)

theorem room_asked_once (endpoint : Endpoint) (room : String) (memory : Option String) (is : List Input)
    (w : Run) (fits : room.length = roomIdLength)
    (waits : (new endpoint (some room) memory).waiting? is = some w)
    (quick : w.client.screen = .quickJoin) :
    AsksOnce room ((new endpoint (some room) memory).handled is) w := by
  have everywhere := waiting_keeps (fun ts w => w.client.screen = .quickJoin → Joining room ts w)
    endpoint (some room) memory (fun _ => start_joining endpoint room memory fits)
    (fun ts r i next linked aged before goes => next_joining room ts r next i linked before goes) is w waits
  obtain ⟨linked, aged, holds⟩ := everywhere
  have joining := holds quick
  refine ⟨fun link user connecting => ?_, fun base user line => ?_⟩
  · obtain ⟨next, goes⟩ := report_goes w ⟨link, .opened⟩
    refine ⟨next, goes, ?_⟩
    have opens := opened_opens w linked.sound link user connecting
    rw [joining_frames room _ w next _ linked quick joining goes, openings_snoc, opens, joining.frames]
    exact greetings_snoc room _ link
  · obtain ⟨link, owner, up⟩ := joining.online (waiting_line w.client base quick user line)
    refine ⟨link, owner, up, ?_⟩
    rw [joining.frames]
    exact joined_iff room _ link

theorem first_link_asked :
    ∃ w next, "ZZ9PL".length = roomIdLength ∧
      (new {} (some "ZZ9PL") none).waiting? [.command (.login "bob")] = some w ∧
      w.client.screen = .quickJoin ∧ w.next? (.report ⟨1, .opened⟩) = some next ∧
      next.frames = [askFrame 1, joinFrame "ZZ9PL" 1] := by
  have came : ((new {} (some "ZZ9PL") none).waiting? [.command (.login "bob")]).map
      (fun w => (w.client.screen, w.connection.phase, w.frames)) =
        some (.quickJoin, .connecting 1 "bob", []) := by
    decide +kernel
  have unopened : openings ((new {} (some "ZZ9PL") none).handled [.command (.login "bob")]) = [] := by
    decide +kernel
  obtain ⟨w, waits, shown⟩ := Option.map_eq_some_iff.mp came
  obtain ⟨quick, connecting, unsent⟩ : w.client.screen = .quickJoin ∧
      w.connection.phase = .connecting 1 "bob" ∧ w.frames = [] := by
    simpa only [Prod.mk.injEq] using shown
  have asked := room_asked_once {} "ZZ9PL" none _ w (by decide) waits quick
  obtain ⟨next, goes, sent⟩ := asked.greets 1 "bob" connecting
  rw [unsent, unopened] at sent
  exact ⟨w, next, by decide, waits, quick, goes, sent⟩

def secondTry : List Input :=
  [.command (.login "bob"), .report ⟨1, .opened⟩, .report ⟨1, .closed⟩, .command (.login "bob"),
    .report ⟨2, .opened⟩]

theorem second_link_unasked :
    ∃ w, (new {} (some "ZZ9PL") none).waiting? secondTry = some w ∧
      OpensFirst ((new {} (some "ZZ9PL") none).handled secondTry) ∧
      w.client.screen = .quickJoin ∧ w.connection.phase = .open 2 "bob" ∧
      w.frames = [askFrame 1, joinFrame "ZZ9PL" 1, askFrame 2] ∧ joinFrame "ZZ9PL" 2 ∉ w.frames ∧
      ∀ base, waitingLine "bob" ∈ Page.bodyOf w.client base := by
  have came : ((new {} (some "ZZ9PL") none).waiting? secondTry).map
      (fun w => ((w.client.screen, w.client.link, w.client.session.userId), w.connection.phase, w.frames)) =
        some ((.quickJoin, .online, "bob"), .open 2 "bob", [askFrame 1, joinFrame "ZZ9PL" 1, askFrame 2]) := by
    decide +kernel
  obtain ⟨w, waits, shown⟩ := Option.map_eq_some_iff.mp came
  obtain ⟨⟨quick, online, user⟩, up, sent⟩ : (w.client.screen = .quickJoin ∧ w.client.link = .online ∧
      w.client.session.userId = "bob") ∧ w.connection.phase = .open 2 "bob" ∧
      w.frames = [askFrame 1, joinFrame "ZZ9PL" 1, askFrame 2] := by
    simpa only [Prod.mk.injEq] using shown
  have orderly := opens_first_of _ w secondTry waits fun link text told => (by simp [secondTry] at told)
  refine ⟨w, waits, orderly, quick, up, sent, ?_, fun base => ?_⟩
  · rw [sent]
    exact fun member => absurd ((joined_iff "ZZ9PL" [1, 2] 2).mp member) (by decide)
  · simp [Page.bodyOf, quick, Page.quickJoinBody, online, user, waitingLine]

end Run
end DarkDrop
