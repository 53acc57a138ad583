import DarkDrop.Proofs.Play.Resync
import Mathlib.Data.List.Induction
import Mathlib.Tactic.SplitIfs

namespace DarkDrop
open Wire

section

variable {τ α : Type} (cuts : τ → Bool) (tells : τ → Option α)

def since (ts : List τ) : List τ := (ts.reverse.takeWhile fun t => !cuts t).reverse

def lastSaid (ts : List τ) : Option α := ts.reverse.findSome? tells

theorem since_snoc (ts : List τ) (t : τ) :
    since cuts (ts ++ [t]) = if cuts t then [] else since cuts ts ++ [t] := by
  cases cut : cuts t <;> simp [since, cut]

theorem last_said_snoc (ts : List τ) (t : τ) :
    lastSaid tells (ts ++ [t]) = (tells t).or (lastSaid tells ts) := by
  cases said : tells t <;> simp [lastSaid, said]

theorem said_since_snoc (ts : List τ) (t : τ) :
    lastSaid tells (since cuts (ts ++ [t])) =
      if cuts t then none else (tells t).or (lastSaid tells (since cuts ts)) := by
  rw [since_snoc]
  split
  · rfl
  · exact last_said_snoc tells _ t

end

namespace Client

inductive Prompt where
  | start
  | call (x : Call)

def answer (c : Client) : Prompt → Client
  | .start => c.start.1
  | .call x => c.call x

def follow (c : Client) (ps : List Prompt) : Client := ps.foldl answer c

structure Turn where
  screen : Screen
  user : String
  prompt : Prompt

namespace Turn

-- The empty id is nobody's.
def own (t : Turn) (id : String) : Bool := t.user != "" && t.user == id

def resets (t : Turn) : Bool :=
  match t.prompt with
  | .call (.heard .disconnected) => true
  | .call (.given .disconnect) => t.screen = .menu || t.screen = .lobby || t.screen = .game
  | _ => false

def clears (t : Turn) : Bool :=
  match t.prompt with
  | .call (.heard (.server (.clientLeft id _ _))) => t.own id
  | _ => t.resets

def user? (t : Turn) : Option String :=
  match t.prompt with
  | .call (.heard (.connected user)) => some user
  | _ => none

def sessionId? (t : Turn) : Option String :=
  match t.prompt with
  | .call (.heard (.server (.sessionResponse sessionId _ _))) => some sessionId
  | .call (.heard (.server (.clientJoined id sessionId _))) => if t.own id then some sessionId else none
  | _ => none

def members? (t : Turn) : Option (List String) :=
  match t.prompt with
  | .call (.heard (.server (.sessionResponse _ members _))) => some members
  | .call (.heard (.server (.clientJoined _ _ members))) => some members
  | _ => none

def left? (t : Turn) : Option String :=
  match t.prompt with
  | .call (.heard (.server (.clientLeft id _ _))) => if t.own id then none else some id
  | _ => none

def order? (t : Turn) : Option (List String × UInt64) :=
  match t.prompt with
  | .call (.heard (.server (.gameStarted g))) => some (g.playerOrder, g.turnIndex)
  | .call (.heard (.server (.turnStart g))) => some (g.playerOrder, g.turnIndex)
  | .call (.heard (.server (.sessionResponse _ _ (some g)))) => some (g.playerOrder, g.turnIndex)
  | .call (.heard (.server (.sessionResponse _ _ none))) => some ([], 0)
  | _ => none

def board? (t : Turn) : Option (List (List UInt64)) :=
  match t.prompt with
  | .call (.heard (.server (.gameStarted g))) => some g.playIndexes
  | .call (.heard (.server (.turnStart g))) => some g.playIndexes
  | .call (.heard (.server (.sessionResponse _ _ (some g)))) => some g.playIndexes
  | .call (.heard (.server (.sessionResponse _ _ none))) => some []
  | .call (.heard (.server (.gameEnded _ board))) => some board
  | _ => none

end Turn

def lastUser (ts : List Turn) : String := (lastSaid Turn.user? (since Turn.resets ts)).getD ""

def record (past : Client × List Turn) (p : Prompt) : Client × List Turn :=
  (past.1.answer p, past.2 ++ [⟨past.1.screen, lastUser past.2, p⟩])

def history (c : Client) (ps : List Prompt) : List Turn := (ps.foldl record (c, [])).2

theorem record_client (c : Client) (ps : List Prompt) : (ps.foldl record (c, [])).1 = c.follow ps := by
  induction ps using List.reverseRecOn with
  | nil => rfl
  | append_singleton ps p ih =>
      rw [follow, List.foldl_append, List.foldl_append]
      exact congrArg (answer · p) ih

theorem history_snoc (c : Client) (ps : List Prompt) (p : Prompt) :
    c.history (ps ++ [p]) = c.history ps ++ [⟨(c.follow ps).screen, lastUser (c.history ps), p⟩] := by
  rw [history, List.foldl_append, ← record_client]
  rfl

def remaining (ts : List Turn) : List String :=
  ((lastSaid Turn.members? ts).getD []).filter
    fun id => id ∉ (since (fun t : Turn => t.members?.isSome) ts).filterMap Turn.left?

theorem remaining_told (ts : List Turn) (t : Turn) (members : List String)
    (told : t.members? = some members) : remaining (ts ++ [t]) = members := by
  simp [remaining, since_snoc, last_said_snoc, told]

theorem remaining_left (ts : List Turn) (t : Turn) (id : String) (quiet : t.members? = none)
    (left : t.left? = some id) : remaining (ts ++ [t]) = (remaining ts).filter (· != id) := by
  simp only [remaining, since_snoc, last_said_snoc, quiet, left, List.filterMap_append, List.filterMap_cons,
    List.filterMap_nil, List.filter_filter, Option.isSome_none, Bool.false_eq_true, if_false,
    Option.none_or]
  congr 1
  funext other
  simp only [List.mem_append, List.mem_singleton]
  by_cases same : other = id <;> simp [same]

theorem remaining_same (ts : List Turn) (t : Turn) (quiet : t.members? = none) (stays : t.left? = none) :
    remaining (ts ++ [t]) = remaining ts := by
  simp only [remaining, since_snoc, last_said_snoc, quiet, stays, List.filterMap_append, List.filterMap_cons,
    List.filterMap_nil, List.append_nil, Option.isSome_none, Bool.false_eq_true, if_false, Option.none_or]

def turn (c : Client) (p : Prompt) : Turn := ⟨c.screen, c.session.userId, p⟩

theorem turn_own (c : Client) (p : Prompt) (id : String) : (c.turn p).own id = c.session.isLocal id := by
  have empty : c.session.userId.isEmpty = (c.session.userId == "") := by
    rw [Bool.eq_iff_iff, String.isEmpty_iff, beq_iff_eq]
  rw [Session.isLocal, empty]
  rfl

@[simp] theorem move_session (c : Client) (t : Trigger) : (c.move t).session = c.session := rfl
@[simp] theorem move_game (c : Client) (t : Trigger) : (c.move t).game = c.game := rfl

structure Turn.Quiet (t : Turn) : Prop where
  clears : t.clears = false
  user : t.user? = none
  sessionId : t.sessionId? = none
  members : t.members? = none
  left : t.left? = none
  order : t.order? = none
  board : t.board? = none

inductive Told (c : Client) : Prompt → Session → Game → Prop where
  | reset (p : Prompt) (resets : (c.turn p).resets = true) : Told c p {} {}
  | quiet (p : Prompt) (quiet : (c.turn p).Quiet) : Told c p c.session c.game
  | connected (user : String) :
      Told c (.call (.heard (.connected user))) { c.session with userId := user } c.game
  | message (m : ServerMessage) :
      Told c (.call (.heard (.server m))) (c.onMessage m).1.session (c.onMessage m).1.game

theorem start_told (c : Client) : Told c .start c.start.1.session c.start.1.game := by
  have quiet : (c.turn .start).Quiet := ⟨rfl, rfl, rfl, rfl, rfl, rfl, rfl⟩
  rw [start]
  split <;> exact .quiet .start quiet

theorem command_told (c : Client) (cmd : Command) :
    Told c (.call (.given cmd)) (c.command cmd).1.session (c.command cmd).1.game := by
  by_cases resets : (c.turn (.call (.given cmd))).resets = true
  · cases cmd with
    | disconnect =>
        have accepted : c.accepts .disconnect = true := resets
        rw [command, if_pos accepted]
        exact .reset _ resets
    | _ => cases resets
  · have kept := Bool.eq_false_iff.mpr resets
    have quiet : (c.turn (.call (.given cmd))).Quiet := ⟨kept, rfl, rfl, rfl, rfl, rfl, rfl⟩
    cases cmd with
    | disconnect =>
        have refused : ¬ c.accepts .disconnect = true := resets
        rw [command, if_neg refused]
        exact .quiet _ quiet
    | login user =>
        rw [command, execute]
        split_ifs <;> exact .quiet _ quiet
    | createSession | joinSession | leaveSession | startGame | play | abandonQuickJoin
      | forgetCachedUser | quit =>
        rw [command]
        split_ifs <;> exact .quiet _ quiet

theorem signal_told (c : Client) (s : Signal) :
    Told c (.call (.heard s)) (c.hear s).1.session (c.hear s).1.game := by
  cases s with
  | disconnected => exact .reset _ rfl
  | connected user => exact .connected user
  | server m => exact .message m
  | connectionFailed reason =>
      have quiet : (c.turn (.call (.heard (.connectionFailed reason)))).Quiet :=
        ⟨rfl, rfl, rfl, rfl, rfl, rfl, rfl⟩
      rw [hear]
      split <;> exact .quiet _ quiet
  | connecting | undecodable | rejected => exact .quiet _ ⟨rfl, rfl, rfl, rfl, rfl, rfl, rfl⟩

theorem answer_told (c : Client) (p : Prompt) : Told c p (c.answer p).session (c.answer p).game := by
  cases p with
  | start => exact start_told c
  | call x =>
      cases x with
      | given cmd => exact command_told c cmd
      | heard s => exact signal_told c s

theorem reset_clears (t : Turn) (resets : t.resets = true) : t.clears = true := by
  rw [Turn.clears]
  split
  · rename_i left
    rw [Turn.resets, left] at resets
    cases resets
  · exact resets

theorem quiet_kept (t : Turn) (quiet : t.Quiet) : t.resets = false := by
  cases resets : t.resets with
  | false => rfl
  | true =>
      have clears := reset_clears t resets
      rw [quiet.clears] at clears
      cases clears

section

variable (c : Client) (id sessionId : String) (members : List String)

theorem left_clears : (c.turn (.call (.heard (.server (.clientLeft id sessionId members))))).clears =
    c.session.isLocal id := turn_own c _ id

theorem left_leaves : (c.turn (.call (.heard (.server (.clientLeft id sessionId members))))).left? =
    if c.session.isLocal id then none else some id := by
  rw [← turn_own c (.call (.heard (.server (.clientLeft id sessionId members))))]
  rfl

theorem joined_session : (c.turn (.call (.heard (.server (.clientJoined id sessionId members))))).sessionId? =
    if c.session.isLocal id then some sessionId else none := by
  rw [← turn_own c (.call (.heard (.server (.clientJoined id sessionId members))))]
  rfl

end

section

variable (c : Client) (p : Prompt) (s : Session) (g : Game) (told : Told c p s g)
include told

theorem user_told :
    s.userId = if (c.turn p).resets then "" else ((c.turn p).user?).getD c.session.userId := by
  cases told with
  | reset p resets => rw [if_pos resets]
  | quiet p quiet => simp [quiet_kept _ quiet, quiet.user]
  | connected user => rfl
  | message m =>
      cases m with
      | clientJoined | clientLeft =>
          rw [onMessage]
          split <;> rfl
      | _ => rfl

theorem session_id_told :
    s.sessionId = if (c.turn p).clears then "" else (c.turn p).sessionId?.getD c.session.sessionId := by
  cases told with
  | reset p resets => rw [if_pos (reset_clears _ resets)]
  | quiet p quiet => simp [quiet.clears, quiet.sessionId]
  | connected user => rfl
  | message m =>
      cases m with
      | clientJoined id sessionId members =>
          have user : Session.isLocal { c.session with members := members } id = c.session.isLocal id := rfl
          have stays : (c.turn (.call (.heard (.server (.clientJoined id sessionId members))))).clears = false := rfl
          rw [stays, joined_session, onMessage, user]
          by_cases own : c.session.isLocal id = true <;> simp [own]
      | clientLeft id sessionId members =>
          rw [left_clears, onMessage]
          by_cases own : c.session.isLocal id = true <;> simp [own, Session.leave, turn, Turn.sessionId?]
      | _ => rfl

theorem members_told :
    s.members = if (c.turn p).clears then [] else
      (c.turn p).members?.getD ((c.turn p).left?.elim c.session.members fun id =>
        c.session.members.filter (· != id)) := by
  cases told with
  | reset p resets => rw [if_pos (reset_clears _ resets)]
  | quiet p quiet => simp [quiet.clears, quiet.members, quiet.left]
  | connected user => rfl
  | message m =>
      cases m with
      | clientJoined id sessionId members =>
          rw [onMessage]
          split <;> rfl
      | clientLeft id sessionId members =>
          rw [left_clears, left_leaves, onMessage]
          by_cases own : c.session.isLocal id = true <;> simp [own, Session.leave, turn, Turn.members?]
      | _ => rfl

theorem order_told :
    (g.turnOrder, g.turnIndex) = if (c.turn p).clears then ([], 0) else
      (c.turn p).order?.getD (c.game.turnOrder, c.game.turnIndex) := by
  cases told with
  | reset p resets => rw [if_pos (reset_clears _ resets)]
  | quiet p quiet => simp [quiet.clears, quiet.order]
  | connected user => rfl
  | message m =>
      cases m with
      | clientJoined id sessionId members =>
          rw [onMessage]
          split <;> rfl
      | clientLeft id sessionId members =>
          rw [left_clears, onMessage]
          by_cases own : c.session.isLocal id = true <;> simp [own, turn, Turn.order?]
      | sessionResponse sessionId members g => cases g <;> rfl
      | _ => rfl

theorem board_told :
    g.pendingMoves = if (c.turn p).clears then [] else (c.turn p).board?.getD c.game.pendingMoves := by
  cases told with
  | reset p resets => rw [if_pos (reset_clears _ resets)]
  | quiet p quiet => simp [quiet.clears, quiet.board]
  | connected user => rfl
  | message m =>
      cases m with
      | clientJoined id sessionId members =>
          rw [onMessage]
          split <;> rfl
      | clientLeft id sessionId members =>
          rw [left_clears, onMessage]
          by_cases own : c.session.isLocal id = true <;> simp [own, turn, Turn.board?]
      | sessionResponse sessionId members g => cases g <;> rfl
      | _ => rfl

end

theorem follow_snoc (c : Client) (ps : List Prompt) (p : Prompt) :
    c.follow (ps ++ [p]) = (c.follow ps).answer p := by
  simp [follow]

theorem follow_user (c : Client) (first : c.session.userId = "") (ps : List Prompt) :
    (c.follow ps).session.userId = lastUser (c.history ps) := by
  induction ps using List.reverseRecOn with
  | nil => exact first
  | append_singleton ps p ih =>
      rw [follow_snoc, history_snoc, ← ih, user_told _ _ _ _ (answer_told _ p), lastUser, said_since_snoc]
      change _ = (if ((c.follow ps).turn p).resets then none else
        ((c.follow ps).turn p).user?.or (lastSaid Turn.user? (since Turn.resets (c.history ps)))).getD ""
      split
      · rfl
      · rw [ih, lastUser]
        cases ((c.follow ps).turn p).user? <;> rfl

theorem history_turn (c : Client) (first : c.session.userId = "") (ps : List Prompt) (p : Prompt) :
    c.history (ps ++ [p]) = c.history ps ++ [(c.follow ps).turn p] := by
  rw [history_snoc, ← follow_user c first]
  rfl

-- What each answer either empties, or takes from the turn, or leaves alone is
-- after any number of them what was last said since it was last emptied.
theorem follow_said {β : Type} (read : Client → β) (empty : β) (tells : Turn → Option β)
    (step : ∀ (c : Client) (p : Prompt), read (c.answer p) =
      if (c.turn p).clears then empty else (tells (c.turn p)).getD (read c))
    (c : Client) (nobody : c.session.userId = "") (first : read c = empty) (ps : List Prompt) :
    read (c.follow ps) = (lastSaid tells (since Turn.clears (c.history ps))).getD empty := by
  induction ps using List.reverseRecOn with
  | nil => exact first
  | append_singleton ps p ih =>
      rw [follow_snoc, history_turn c nobody, step, said_since_snoc]
      split
      · rfl
      · rw [ih]
        cases tells ((c.follow ps).turn p) <;> rfl

theorem follow_members (c : Client) (nobody : c.session.userId = "") (first : c.session.members = [])
    (ps : List Prompt) : (c.follow ps).session.members = remaining (since Turn.clears (c.history ps)) := by
  induction ps using List.reverseRecOn with
  | nil => exact first
  | append_singleton ps p ih =>
      rw [follow_snoc, history_turn c nobody, since_snoc, members_told _ _ _ _ (answer_told _ p)]
      split
      · rfl
      · cases told : ((c.follow ps).turn p).members? with
        | some members => exact (remaining_told _ _ members told).symm
        | none =>
            cases left : ((c.follow ps).turn p).left? with
            | some id =>
                rw [remaining_left _ _ id told left, ← ih]
                rfl
            | none =>
                rw [remaining_same _ _ told left, ← ih]
                rfl

structure LastWord (c : Client) (ps : List Prompt) : Prop where
  userId : (c.follow ps).session.userId = lastUser (c.history ps)
  sessionId : (c.follow ps).session.sessionId =
    (lastSaid Turn.sessionId? (since Turn.clears (c.history ps))).getD ""
  members : (c.follow ps).session.members = remaining (since Turn.clears (c.history ps))
  order : ((c.follow ps).game.turnOrder, (c.follow ps).game.turnIndex) =
    (lastSaid Turn.order? (since Turn.clears (c.history ps))).getD ([], 0)
  pendingMoves : (c.follow ps).game.pendingMoves =
    (lastSaid Turn.board? (since Turn.clears (c.history ps))).getD []

theorem last_word (room : Option String) (ps : List Prompt) : LastWord (new room) ps where
  userId := follow_user (new room) rfl ps
  sessionId := follow_said (·.session.sessionId) "" Turn.sessionId?
    (fun c p => session_id_told c p _ _ (answer_told c p)) (new room) rfl rfl ps
  members := follow_members (new room) rfl rfl ps
  order := follow_said (fun c => (c.game.turnOrder, c.game.turnIndex)) ([], 0) Turn.order?
    (fun c p => order_told c p _ _ (answer_told c p)) (new room) rfl rfl ps
  pendingMoves := follow_said (·.game.pendingMoves) [] Turn.board?
    (fun c p => board_told c p _ _ (answer_told c p)) (new room) rfl rfl ps

theorem won_after_leaving :
    let ps : List Prompt := [.start, .call (.heard (.connected "alice")),
      .call (.heard (.server (.sessionResponse "ROOM1" ["alice", "bob", "eve"] none))),
      .call (.heard (.server (.gameStarted ⟨0, ["alice", "bob", "eve"], [[], []]⟩))),
      .call (.heard (.server (.turnStart ⟨1, ["alice", "bob", "eve"], [[1], []]⟩))),
      .call (.heard (.server (.clientLeft "bob" "ROOM1" ["alice", "eve"]))),
      .call (.heard (.server (.gameEnded "eve" [[1, 2], []])))]
    LastWord (new none) ps ∧
      ((new none).follow ps).session = ⟨"ROOM1", "alice", ["alice", "eve"]⟩ ∧
      ((new none).follow ps).game = ⟨["alice", "bob", "eve"], 1, [[1, 2], []]⟩ := by
  intro ps
  exact ⟨last_word none ps, by decide +kernel, by decide +kernel⟩

end Client
end DarkDrop
