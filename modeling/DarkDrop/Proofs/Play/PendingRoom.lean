import DarkDrop.Proofs.Play.QuickJoin

namespace DarkDrop
open Wire

namespace Run

-- No link has reported that it has opened, other than one that had been asked to
-- close by then, or had ended.
def Unopened (ts : List (Run × Input)) : Prop :=
  ∀ t ∈ ts, ∀ link user, t.1.connection.live? = some (link, user) → t.2 ≠ .report ⟨link, .opened⟩

variable (ts : List (Run × Input)) (r : Run) (i : Input) (c : Client) (k : Connection)

theorem unopened_snoc : Unopened (ts ++ [(r, i)]) ↔ Unopened ts ∧
    ∀ link user, r.connection.live? = some (link, user) → i ≠ .report ⟨link, .opened⟩ := by
  simp [Unopened, or_imp, forall_and]

theorem openings_unopened (linked : r.Linked)
    (up : ∀ link user, r.connection.phase = .open link user → openings ts ≠ [])
    (before : openings ts = [] ↔ Unopened ts) :
    openings (ts ++ [(r, i)]) = [] ↔ Unopened (ts ++ [(r, i)]) := by
  rw [openings_snoc, unopened_snoc, List.append_eq_nil_iff, before]
  refine and_congr_right fun unopened => ?_
  rw [Option.toList_eq_nil_iff, Option.eq_none_iff_forall_ne_some]
  constructor
  · rintro still link user live rfl
    rcases r.connection.live_phase link user live with connecting | opened
    · exact still link (opened_opens r linked.sound link user connecting)
    · exact up link user opened (before.mpr unopened)
  · intro unreported link opens
    obtain ⟨report, user, connecting⟩ := (opening_iff r linked.sound i link).mp opens
    exact unreported link user (by simp [Connection.live?, connecting]) report

theorem move_opened (linked : r.Linked)
    (up : ∀ link user, r.connection.phase = .open link user → openings ts ≠ []) (move : Move r i c k)
    (link : LinkId) (user : String) (phase : k.phase = .open link user) :
    openings (ts ++ [(r, i)]) ≠ [] := by
  rw [openings_snoc]
  cases move with
  | opened other owner connecting =>
      rw [opened_opens r linked.sound other owner connecting]
      simp
  | idled | unreached | withdrawn | heard | troubled => simp [up link user phase]
  | redirected | dialled | parted | abandoned | lost | redialled => cases phase

theorem move_pending (move : Move r i c k) :
    c.pendingRoom = r.client.pendingRoom ∨ c.pendingRoom = none := by
  cases move with
  | abandoned | withdrawn => exact .inr rfl
  | opened link user connecting =>
      by_cases quick : r.client.screen = .quickJoin
      · exact .inr (if_pos quick)
      · exact .inl (if_neg quick)
  | heard link user text live => exact .inl (text_spares r.client text).room
  | idled | unreached | redirected | dialled | parted | troubled | lost | redialled => exact .inl rfl

structure Pends (room : Option String) (ts : List (Run × Input)) (c : Client) (k : Connection) : Prop where
  opened : ∀ link user, k.phase = .open link user → openings ts ≠ []
  unopened : openings ts = [] ↔ Unopened ts
  away : c.screen ≠ .quickJoin → c.pendingRoom = none
  joining : c.screen = .quickJoin → c.pendingRoom = if openings ts = [] then room else none

-- A user leaves quick join by giving it up. Otherwise a message does, and it finds
-- its link open.
theorem leaving_pends (room : Option String) (linked : r.Linked) (aged : Aged ts r.connection)
    (pends : Pends room ts r.client r.connection) (orderly : OpensFirst (ts ++ [(r, i)]))
    (move : Move r i c k) (other : r.command? i ≠ some .disconnect)
    (quick : r.client.screen = .quickJoin) (left : c.screen ≠ .quickJoin) : c.pendingRoom = none := by
  cases move with
  | abandoned | withdrawn => rfl
  | heard link user text live =>
      have up := message_open ts r linked aged link user text live orderly
      rw [(text_spares r.client text).room, pends.joining quick, if_neg (pends.opened link user up)]
  | parted _ link user given live => exact absurd given other
  | opened | lost | redialled =>
      refine absurd ?_ left
      simp [Client.onConnected, Client.hear, Client.forget, Client.move, quick, Screen.after]
  | idled | unreached | redirected | dialled | troubled => exact absurd quick left

theorem next_away (room : Option String) (next : Run) (linked : r.Linked) (aged : Aged ts r.connection)
    (pends : Pends room ts r.client r.connection) (orderly : OpensFirst (ts ++ [(r, i)]))
    (goes : r.next? i = some next) (left : next.client.screen ≠ .quickJoin) :
    next.client.pendingRoom = none := by
  have move := next_moves r next linked i goes
  by_cases quick : r.client.screen = .quickJoin
  · by_cases given : r.command? i = some .disconnect
    · have off : r.client.accepts .disconnect = false := by simp [Client.accepts, quick]
      obtain ⟨client, _⟩ := refused_settles r next i _ given goes off
      rw [client] at left
      exact absurd quick left
    · exact leaving_pends ts r i _ _ room linked aged pends orderly move given quick left
  · rcases move_pending r i _ _ move with same | gone
    · rw [same, pends.away quick]
    · exact gone

theorem next_pends (room : Option String) (next : Run) (linked : r.Linked) (aged : Aged ts r.connection)
    (pends : Pends room ts r.client r.connection) (orderly : OpensFirst (ts ++ [(r, i)]))
    (goes : r.next? i = some next) : Pends room (ts ++ [(r, i)]) next.client next.connection := by
  have move := next_moves r next linked i goes
  refine ⟨move_opened ts r i _ _ linked pends.opened move,
    openings_unopened ts r i linked pends.opened pends.unopened,
    next_away ts r i room next linked aged pends orderly goes, fun quick => ?_⟩
  rw [move_room r i _ _ linked move quick, pends.joining (move_quick r i _ _ move quick), openings_snoc]
  cases opens : opening? (r, i) <;> simp

theorem start_pends (endpoint : Endpoint) (room memory : Option String) :
    Pends room [] ((new endpoint room memory).start .never).1.client
      ((new endpoint room memory).start .never).1.connection := by
  rw [start_client, start_connection]
  refine ⟨fun link user up => (by cases up), by simp [openings, Unopened], fun left => ?_, fun quick => ?_⟩
  · cases room with
    | none => rfl
    | some id =>
        by_cases fits : id.length = roomIdLength
        · simp [new, Client.new, Client.setCachedUser, Client.start, checkRoomId, fits] at left
        · simp [new, Client.new, Client.setCachedUser, Client.start, checkRoomId, fits, Client.move]
  · cases room with
    | none => rfl
    | some id =>
        by_cases fits : id.length = roomIdLength
        · simp [new, Client.new, Client.setCachedUser, Client.start, checkRoomId, fits, openings]
        · simp [new, Client.new, Client.setCachedUser, Client.start, checkRoomId, fits, Client.move,
            Screen.after] at quick

theorem waiting_pends (endpoint : Endpoint) (room memory : Option String) (is : List Input) (w : Run)
    (orderly : OpensFirst ((new endpoint room memory).handled is))
    (waits : (new endpoint room memory).waiting? is = some w) :
    w.Linked ∧ Pends room ((new endpoint room memory).handled is) w.client w.connection := by
  have everywhere := waiting_keeps (fun ts w => OpensFirst ts → Pends room ts w.client w.connection)
    endpoint room memory (fun _ => start_pends endpoint room memory) ?_ is w waits
  · exact ⟨everywhere.1, everywhere.2.2 orderly⟩
  · intro ts r i next linked aged earlier goes opens
    exact next_pends ts r i room next linked aged (earlier (opens_first_earlier ts _ opens)) opens goes

omit ts r i c k

theorem pending_gone (r w : Run) (linked : r.Linked) (gone : r.client.pendingRoom = none) (more : List Input)
    (waits : more.foldlM next? r = some w) : w.client.pendingRoom = none := by
  induction more generalizing r with
  | nil =>
      cases waits
      exact gone
  | cons i more ih =>
      rw [List.foldlM_cons] at waits
      obtain ⟨next, goes, rest⟩ := Option.bind_eq_some_iff.mp waits
      refine ih next (next_linked r next linked i goes) ?_ rest
      rcases move_pending r i _ _ (next_moves r next linked i goes) with same | now
      · rw [same, gone]
      · exact now

theorem pending_room_iff (endpoint : Endpoint) (room memory : Option String) (is : List Input) (w : Run)
    (orderly : OpensFirst ((new endpoint room memory).handled is))
    (waits : (new endpoint room memory).waiting? is = some w) :
    (∀ id, w.client.pendingRoom = some id ↔ room = some id ∧ id.length = 5 ∧ w.client.screen = .quickJoin ∧
      Unopened ((new endpoint room memory).handled is)) ∧
    (w.client.pendingRoom = none → ∀ more later,
      (new endpoint room memory).waiting? (is ++ more) = some later → later.client.pendingRoom = none) := by
  obtain ⟨linked, pends⟩ := waiting_pends endpoint room memory is w orderly waits
  refine ⟨fun id => ⟨fun holds => ?_, ?_⟩, fun gone more later reached => ?_⟩
  · have quick : w.client.screen = .quickJoin := by
      by_contra left
      rw [pends.away left] at holds
      cases holds
    have unopened : openings ((new endpoint room memory).handled is) = [] := by
      by_contra opened
      rw [pends.joining quick, if_neg opened] at holds
      cases holds
    refine ⟨?_, linked.room id holds, quick, pends.unopened.mp unopened⟩
    rw [← holds, pends.joining quick, if_pos unopened]
  · rintro ⟨given, _, quick, unopened⟩
    rw [pends.joining quick, if_pos (pends.unopened.mpr unopened), given]
  · rw [waiting_started, List.foldlM_append, ← waiting_started, waits] at reached
    exact pending_gone w later linked gone more reached

def lateOpening : List Input :=
  [.command (.login "bob"), .command (.login "carol"), .report ⟨1, .opened⟩]

theorem late_opening_waits :
    ∃ w, (new {} (some "ZZ9PL") none).waiting? lateOpening = some w ∧
      OpensFirst ((new {} (some "ZZ9PL") none).handled lateOpening) ∧ w.client.pendingRoom = some "ZZ9PL" := by
  have came : ((new {} (some "ZZ9PL") none).waiting? lateOpening).map (fun w => w.client.pendingRoom) =
      some (some "ZZ9PL") := by
    decide +kernel
  obtain ⟨w, waits, pending⟩ := Option.map_eq_some_iff.mp came
  exact ⟨w, waits, opens_first_of _ w lateOpening waits fun link text told => (by simp [lateOpening] at told),
    pending⟩

theorem late_opening_unopened :
    ∃ w, (new {} (some "ZZ9PL") none).waiting? lateOpening = some w ∧
      OpensFirst ((new {} (some "ZZ9PL") none).handled lateOpening) ∧
      w.client.pendingRoom = some "ZZ9PL" ∧ w.client.screen = .quickJoin ∧
      Unopened ((new {} (some "ZZ9PL") none).handled lateOpening) := by
  obtain ⟨w, waits, orderly, pending⟩ := late_opening_waits
  have held := ((pending_room_iff {} (some "ZZ9PL") none lateOpening w orderly waits).1 "ZZ9PL").mp pending
  exact ⟨w, waits, orderly, pending, held.2.2⟩

theorem late_opening_reported :
    ∃ w, (new {} (some "ZZ9PL") none).waiting? lateOpening = some w ∧
      OpensFirst ((new {} (some "ZZ9PL") none).handled lateOpening) ∧
      w.client.pendingRoom = some "ZZ9PL" ∧
      .opened ∈ reportsOf ((new {} (some "ZZ9PL") none).handled lateOpening) 1 := by
  obtain ⟨w, waits, orderly, pending⟩ := late_opening_waits
  exact ⟨w, waits, orderly, pending, by decide +kernel⟩

end Run
end DarkDrop
