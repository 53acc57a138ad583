import DarkDrop.Proofs.Link.Ledger
import DarkDrop.Proofs.Play.Moves

namespace DarkDrop
open Wire

namespace Run

theorem opened_told (c : Connection) (link : LinkId) (user : String)
    (connecting : c.phase = .connecting link user) :
    (c.receive ⟨link, .opened⟩).notices = [.opened user] := by
  simp [Connection.receive, Connection.link?, Connection.isClosing, Connection.onOpened, connecting]

theorem error_told (c : Connection) (link : LinkId) (user : String) (e : LinkError)
    (live : c.live? = some (link, user)) : (c.receive ⟨link, .error e⟩).notices = [.error e] := by
  have current := c.live_link link user live
  rcases c.live_phase link user live with phase | phase <;>
    simp [Connection.receive, current, Connection.isClosing, phase]

theorem move_connecting (r : Run) (i : Input) (c : Client) (k : Connection) (move : Move r i c k)
    (link : LinkId) (user : String) (connecting : k.phase = .connecting link user) :
    (r.connection.phase = .connecting link user ∧ i ≠ .report ⟨link, .opened⟩) ∨
      r.connection.next ≤ link := by
  cases move with
  | idled _ cached unmoved stays =>
      refine .inl ⟨connecting, fun same => ?_⟩
      have told := opened_told r.connection link user connecting
      rw [unmoved _ same] at told
      cases told
  | unreached _ typed e cached given named failed =>
      refine .inl ⟨connecting, fun same => ?_⟩
      rw [same] at given
      cases given
  | withdrawn _ given quick idle =>
      refine .inl ⟨connecting, fun same => ?_⟩
      rw [same] at given
      cases given
  | heard other old text live => exact .inl ⟨connecting, by simp⟩
  | troubled other old e cached live => exact .inl ⟨connecting, by simp⟩
  | dialled => cases connecting; exact .inr (Nat.le_refl _)
  | redialled => cases connecting; exact .inr (Nat.le_refl _)
  | redirected | parted | abandoned | opened | lost => cases connecting

theorem move_grows (r : Run) (i : Input) (c : Client) (k : Connection) (move : Move r i c k) :
    r.connection.next ≤ k.next := by
  cases move with
  | dialled | redialled => exact Nat.le_succ _
  | _ => exact Nat.le_refl _

theorem move_numbered (r : Run) (i : Input) (c : Client) (k : Connection) (linked : r.Linked)
    (numbered : ∀ link, r.connection.link? = some link → 0 < link) (move : Move r i c k) :
    ∀ link, k.link? = some link → 0 < link := by
  intro link current
  cases move with
  | dialled | redialled =>
      cases current
      exact linked.sound.positive
  | redirected _ typed other given outside before =>
      cases current
      exact numbered link before
  | parted _ other user given live =>
      cases current
      exact numbered link (r.connection.live_link link user live)
  | abandoned _ other given quick before =>
      cases current
      exact numbered link before
  | opened other user connecting =>
      cases current
      exact numbered link (by simp [Connection.link?, connecting])
  | lost => cases current
  | idled | unreached | withdrawn | heard | troubled => exact numbered link current

-- How a connection stands to the waits before it. Links are numbered upwards, and
-- one whose handshake is out was never in another phase nor said to have opened.
structure Aged (ts : List (Run × Input)) (k : Connection) : Prop where
  sound : ∀ t ∈ ts, t.1.connection.Sound
  grown : ∀ t ∈ ts, t.1.connection.next ≤ k.next
  numbered : ∀ link, k.link? = some link → 0 < link
  opening : ∀ link user, k.phase = .connecting link user →
    ∀ t ∈ ts, link < t.1.connection.next →
      t.1.connection.phase = .connecting link user ∧ t.2 ≠ .report ⟨link, .opened⟩

theorem every_snoc (ts : List (Run × Input)) (t : Run × Input) (P : Run × Input → Prop)
    (earlier : ∀ s ∈ ts, P s) (last : P t) : ∀ s ∈ ts ++ [t], P s := by
  intro s member
  rcases List.mem_append.mp member with before | same
  · exact earlier s before
  · rw [List.mem_singleton.mp same]
    exact last

theorem move_aged (ts : List (Run × Input)) (r : Run) (i : Input) (c : Client) (k : Connection)
    (linked : r.Linked) (aged : Aged ts r.connection) (move : Move r i c k) :
    Aged (ts ++ [(r, i)]) k := by
  have grows := move_grows r i c k move
  refine ⟨every_snoc ts _ _ aged.sound linked.sound,
    every_snoc ts _ _ (fun t member => Nat.le_trans (aged.grown t member) grows) grows,
    move_numbered r i c k linked aged.numbered move, fun link user connecting => ?_⟩
  rcases move_connecting r i c k move link user connecting with before | fresh
  · exact every_snoc ts _ _ (aged.opening link user before.1) fun _ => before
  · exact every_snoc ts _ _
      (fun t member older => absurd (Nat.le_trans (aged.grown t member) fresh) (Nat.not_le.mpr older))
      fun older => absurd fresh (Nat.not_le.mpr older)

theorem start_client (endpoint : Endpoint) (room memory : Option String) :
    ((new endpoint room memory).start .never).1.client = (new endpoint room memory).client.start.1 :=
  (start_quiet (new endpoint room memory)).client

theorem start_connection (endpoint : Endpoint) (room memory : Option String) :
    ((new endpoint room memory).start .never).1.connection = Connection.new endpoint :=
  (start_quiet (new endpoint room memory)).connection

-- What holds once a run has started and is kept by every input holds at every
-- wait, where all that came before may be made use of.
theorem waiting_keeps (P : List (Run × Input) → Run → Prop) (endpoint : Endpoint)
    (room memory : Option String) (first : P [] ((new endpoint room memory).start .never).1)
    (kept : ∀ ts r i next, r.Linked → Aged ts r.connection → P ts r → r.next? i = some next →
      P (ts ++ [(r, i)]) next)
    (is : List Input) (w : Run) (waits : (new endpoint room memory).waiting? is = some w) :
    w.Linked ∧ Aged ((new endpoint room memory).handled is) w.connection ∧
      P ((new endpoint room memory).handled is) w := by
  refine waiting_holds (fun ts w => w.Linked ∧ Aged ts w.connection ∧ P ts w)
    (new endpoint room memory) ⟨start_linked endpoint room memory, ?_, first⟩ ?_ is w waits
  · rw [start_connection]
    exact ⟨by simp, by simp, fun link current => (by cases current), by simp⟩
  · rintro ts r i next ⟨linked, aged, holds⟩ goes
    exact ⟨next_linked r next linked i goes,
      move_aged ts r i _ _ linked aged (next_moves r next linked i goes),
      kept ts r i next linked aged holds goes⟩

theorem current_older (ts : List (Run × Input)) (k : Connection) (aged : Aged ts k)
    (t : Run × Input) (member : t ∈ ts) (link : LinkId) (current : t.1.connection.link? = some link) :
    link < k.next :=
  Nat.lt_of_lt_of_le (t.1.connection.current_old (aged.sound t member) link current)
    (aged.grown t member)

def opening? (t : Run × Input) : Option LinkId :=
  match t.2 with
  | .report x => if t.1.opens x then some x.link else none
  | _ => none

def openings (ts : List (Run × Input)) : List LinkId := ts.filterMap opening?

theorem openings_snoc (ts : List (Run × Input)) (t : Run × Input) :
    openings (ts ++ [t]) = openings ts ++ (opening? t).toList := by
  cases opens : opening? t <;> simp [openings, opens]

theorem opens_iff (r : Run) (sound : r.connection.Sound) (x : Report) :
    r.opens x ↔ x.event = .opened ∧ ∃ user, r.connection.phase = .connecting x.link user := by
  obtain ⟨link, event⟩ := x
  constructor
  · rintro ⟨opened, connecting, up⟩
    refine ⟨opened, ?_⟩
    have event : event = .opened := opened
    subst event
    cases phase : r.connection.phase with
    | connecting other user =>
        by_cases same : other = link
        · exact ⟨user, by rw [same]⟩
        · have stale : r.connection.link? ≠ some link := by simpa [Connection.link?, phase] using same
          simp [r.connection.receive_stale ⟨link, .opened⟩ stale, Connection.isOpen, phase] at up
    | idle | «open» | disconnecting | closed => simp [Connection.isConnecting, phase] at connecting
  · rintro ⟨opened, user, connecting⟩
    have event : event = .opened := opened
    subst event
    have phase : r.connection.phase = .connecting link user := connecting
    have held := r.connection.live_held sound link user (by simp [Connection.live?, phase])
    refine ⟨rfl, by simp [Connection.isConnecting, phase], ?_⟩
    simp [Connection.receive, Connection.link?, Connection.isClosing, Connection.onOpened,
      Connection.isOpen, phase, held]

theorem opening_iff (r : Run) (sound : r.connection.Sound) (i : Input) (link : LinkId) :
    opening? (r, i) = some link ↔
      i = .report ⟨link, .opened⟩ ∧ ∃ user, r.connection.phase = .connecting link user := by
  cases i with
  | report x =>
      obtain ⟨other, event⟩ := x
      have opens := opens_iff r sound ⟨other, event⟩
      by_cases now : r.opens ⟨other, event⟩
      · obtain ⟨opened, user, phase⟩ := opens.mp now
        simp only [opening?, if_pos now, Option.some.injEq, Input.report.injEq, Report.mk.injEq]
        constructor
        · rintro rfl
          exact ⟨⟨rfl, opened⟩, user, phase⟩
        · exact fun same => same.1.1
      · simp only [opening?, if_neg now, reduceCtorEq, Input.report.injEq, Report.mk.injEq, false_iff]
        rintro ⟨⟨rfl, opened⟩, connecting⟩
        exact now (opens.mpr ⟨opened, connecting⟩)
  | command | line | failure => simp [opening?]

theorem opened_opens (r : Run) (sound : r.connection.Sound) (link : LinkId) (user : String)
    (connecting : r.connection.phase = .connecting link user) :
    opening? (r, .report ⟨link, .opened⟩) = some link :=
  (opening_iff r sound _ link).mpr ⟨rfl, user, connecting⟩

theorem openings_still (ts : List (Run × Input)) (t : Run × Input) (still : opening? t = none) :
    openings (ts ++ [t]) = openings ts := by
  rw [openings_snoc, still, Option.toList_none, List.append_nil]

theorem command_unopened (r : Run) (i : Input) (c : Command) (given : r.command? i = some c) :
    opening? (r, i) = none := by
  cases i with
  | report x => cases given
  | command | line | failure => rfl

theorem event_unopened (r : Run) (x : Report) (other : x.event ≠ .opened) :
    opening? (r, .report x) = none :=
  if_neg fun opens => other opens.1

theorem unmoved_unopened (r : Run) (sound : r.connection.Sound) (i : Input)
    (unmoved : ∀ x, i = .report x → (r.connection.receive x).notices = []) :
    opening? (r, i) = none := by
  by_contra opens
  obtain ⟨link, opens⟩ := Option.ne_none_iff_exists'.mp opens
  obtain ⟨report, user, connecting⟩ := (opening_iff r sound i link).mp opens
  have told := opened_told r.connection link user connecting
  rw [unmoved _ report] at told
  cases told

theorem connecting_unopened (ts : List (Run × Input)) (k : Connection) (aged : Aged ts k) (link : LinkId)
    (user : String) (connecting : k.phase = .connecting link user) : link ∉ openings ts := by
  intro opened
  obtain ⟨t, member, opens⟩ := List.mem_filterMap.mp opened
  obtain ⟨report, owner, phase⟩ := (opening_iff t.1 (aged.sound t member) t.2 link).mp opens
  have older := t.1.connection.current_old (aged.sound t member) link (by simp [Connection.link?, phase])
  exact (aged.opening link user connecting t member older).2 report

theorem quick_before (s : Screen) (t : Trigger) (other : t ≠ .quickJoinRequested)
    (after : s.after t = .quickJoin) : s = .quickJoin := by
  cases s <;> cases t <;> simp_all [Screen.after]
  all_goals rename_i inGame; cases inGame <;> simp at after

structure Spared (before after : Client) : Prop where
  link : after.link = before.link
  user : after.session.userId = before.session.userId
  room : after.pendingRoom = before.pendingRoom
  login : after.screen = .login → before.screen = .login
  quick : after.screen = .quickJoin → before.screen = .quickJoin

theorem move_spares (b c : Client) (t : Trigger) (inside : (c.screen.after t).linked = true)
    (link : c.link = b.link) (user : c.session.userId = b.session.userId)
    (room : c.pendingRoom = b.pendingRoom) : Spared b (c.move t) := by
  have outside : ∀ s : Screen, s.linked = false → (c.move t).screen = s → b.screen = s := by
    rintro s out rfl
    exact absurd (inside.symm.trans out) (by simp)
  exact ⟨link, user, room, outside .login rfl, outside .quickJoin rfl⟩

theorem on_message_spares (c : Client) (m : ServerMessage) : Spared c (c.onMessage m).1 := by
  cases m with
  | clientJoined | clientLeft =>
      rw [Client.onMessage]
      split
      · exact move_spares c _ _ (by cases c.screen <;> rfl) rfl rfl rfl
      · exact ⟨rfl, rfl, rfl, id, id⟩
  | sessionResponse sessionId members g =>
      exact move_spares c _ _ (by cases c.screen <;> cases g <;> rfl) rfl rfl rfl
  | gameStarted | cannotJoinInProgress => exact move_spares c _ _ (by cases c.screen <;> rfl) rfl rfl rfl
  | gameEnded => exact ⟨rfl, rfl, rfl, by simp [Client.onMessage, Client.move, Screen.after],
      by simp [Client.onMessage, Client.move, Screen.after]⟩
  | turnStart | logicError => exact ⟨rfl, rfl, rfl, id, id⟩

theorem text_spares (c : Client) (text : String) :
    Spared c (c.hear (.ofNotice (Connection.noticeOfText text))).1 := by
  rw [Connection.noticeOfText]
  split
  · exact on_message_spares c _
  · exact ⟨rfl, rfl, rfl, id, id⟩

theorem move_quick (r : Run) (i : Input) (c : Client) (k : Connection) (move : Move r i c k)
    (quick : c.screen = .quickJoin) : r.client.screen = .quickJoin := by
  cases move with
  | heard link user text live => exact (text_spares r.client text).quick quick
  | opened => exact quick_before _ .loginSucceeded (by simp) quick
  | lost | redialled => exact quick_before _ .transportClosed (by simp) quick
  | parted => exact quick_before _ .disconnected (by simp) quick
  | abandoned _ link given before current => exact before
  | withdrawn _ given before idle => exact before
  | idled | unreached | redirected | dialled | troubled => exact quick

end Run
end DarkDrop
