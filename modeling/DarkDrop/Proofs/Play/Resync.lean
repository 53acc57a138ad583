import DarkDrop.Play.Client

namespace DarkDrop
open Wire

namespace Client

inductive Call where
  | given (cmd : Command)
  | heard (s : Signal)

def call (c : Client) : Call → Client
  | .given cmd => (c.command cmd).1
  | .heard s => (c.hear s).1

def after (c : Client) (calls : List Call) : Client := calls.foldl call c

-- Two clients in the same session and game, on the same screen. Link status,
-- pending room and remembered user may differ.
structure Alike (b c : Client) : Prop where
  session : b.session = c.session
  game : b.game = c.game
  screen : b.screen = c.screen

variable (b c : Client) (alike : Alike b c)
include alike

theorem move_alike (t : Trigger) : Alike (b.move t) (c.move t) :=
  ⟨alike.session, alike.game, congrArg (·.after t) alike.screen⟩

theorem accepts_alike (cmd : Command) : b.accepts cmd = c.accepts cmd := by
  cases cmd <;> simp only [accepts, alike.screen]

theorem execute_alike (cmd : Command) : Alike (b.execute cmd).1 (c.execute cmd).1 := by
  cases cmd with
  | login user =>
      rw [execute, execute]
      split <;> exact alike
  | disconnect => exact ⟨rfl, rfl, (move_alike b c alike .disconnected).screen⟩
  | abandonQuickJoin =>
      exact ⟨alike.session, alike.game, (move_alike b c alike .quickJoinAbandoned).screen⟩
  | forgetCachedUser => exact ⟨alike.session, alike.game, alike.screen⟩
  | createSession | joinSession | leaveSession | startGame | play | quit => exact alike

theorem command_alike (cmd : Command) : Alike (b.command cmd).1 (c.command cmd).1 := by
  rw [command, command, accepts_alike b c alike cmd]
  split
  · exact execute_alike b c alike cmd
  · exact alike

theorem message_alike (m : ServerMessage) : Alike (b.onMessage m).1 (c.onMessage m).1 := by
  obtain ⟨session, game, screen⟩ := alike
  cases m with
  | clientJoined | clientLeft =>
      simp only [onMessage, session]
      split
      · exact ⟨rfl, by simp only [move, game], by simp only [move, screen]⟩
      · exact ⟨rfl, game, screen⟩
  | sessionResponse | gameStarted =>
      exact ⟨by simp only [onMessage, move, session], rfl, by simp only [onMessage, move, screen]⟩
  | turnStart => exact ⟨session, rfl, screen⟩
  | logicError => exact ⟨session, game, screen⟩
  | cannotJoinInProgress => exact move_alike b c ⟨session, game, screen⟩ _
  | gameEnded => exact ⟨session, by simp only [onMessage, move, game], by simp only [onMessage, move, screen]⟩

theorem hear_alike (s : Signal) : Alike (b.hear s).1 (c.hear s).1 := by
  cases s with
  | connecting => exact ⟨alike.session, alike.game, alike.screen⟩
  | connected user =>
      refine ⟨?_, alike.game, (move_alike b c alike .loginSucceeded).screen⟩
      exact congrArg (fun s : Session => { s with userId := user }) alike.session
  | disconnected => exact ⟨rfl, rfl, (move_alike b c alike .transportClosed).screen⟩
  | connectionFailed reason =>
      rw [hear, hear, alike.screen]
      split <;> exact ⟨alike.session, alike.game, rfl⟩
  | server m => exact message_alike b c alike m
  | undecodable | rejected => exact alike

theorem call_alike (x : Call) : Alike (b.call x) (c.call x) := by
  cases x with
  | given cmd => exact command_alike b c alike cmd
  | heard s => exact hear_alike b c alike s

theorem after_alike (calls : List Call) : Alike (b.after calls) (c.after calls) := by
  induction calls generalizing b c with
  | nil => exact alike
  | cons x calls ih => exact ih (b.call x) (c.call x) (call_alike b c alike x)

omit alike

theorem response_alike (same : b.session.userId = c.session.userId) (sessionId : String)
    (members : List String) (g : Option Snapshot) :
    Alike (b.hear (.server (.sessionResponse sessionId members g))).1
      (c.hear (.server (.sessionResponse sessionId members g))).1 := by
  refine ⟨?_, rfl, ?_⟩
  · simp only [hear, onMessage, move, same]
  · simp only [hear, onMessage, move]
    cases g <;> cases b.screen <;> cases c.screen <;> rfl

theorem response_resyncs :
    (∀ b c : Client, b.session.userId = c.session.userId →
      ∀ (sessionId : String) (members : List String) (g : Option Snapshot) (calls : List Call),
        Alike ((b.hear (.server (.sessionResponse sessionId members g))).1.after calls)
          ((c.hear (.server (.sessionResponse sessionId members g))).1.after calls)) ∧
    ∀ b c : Client, Alike b c → ∀ calls : List Call, Alike (b.after calls) (c.after calls) :=
  ⟨fun b c same sessionId members g calls => after_alike _ _ (response_alike b c same sessionId members g) calls,
    after_alike⟩

def lateBob : Client where
  screen := .quickJoin
  session := ⟨"OLD99", "bob", ["carol", "bob"]⟩
  game := ⟨["carol", "bob"], 1, [[1, 0]]⟩
  link := .offline
  pendingRoom := some "ZZ9PL"
  cachedUser := some "carol"

def newBob : Client := { screen := .menu, session := { userId := "bob" }, link := .online }

def evening : List Call :=
  [.heard (.server (.clientJoined "alice" "AB12C" ["bob", "alice"])), .given .startGame,
    .heard (.server (.gameStarted ⟨0, ["bob", "alice"], [[0], [0]]⟩)), .heard (.connectionFailed "reset"),
    .given (.play 1), .heard (.server (.gameEnded "bob" [[0], [7]]))]

theorem late_bob_resyncs :
    lateBob.session.userId = newBob.session.userId ∧ ¬ Alike lateBob newBob ∧
      (((newBob.hear (.server (.sessionResponse "AB12C" ["bob"] none))).1.after evening).screen = .game) ∧
      Alike ((lateBob.hear (.server (.sessionResponse "AB12C" ["bob"] none))).1.after evening)
        ((newBob.hear (.server (.sessionResponse "AB12C" ["bob"] none))).1.after evening) :=
  ⟨rfl, fun alike => (by cases alike.screen), rfl,
    response_resyncs.1 lateBob newBob rfl "AB12C" ["bob"] none evening⟩

end Client
end DarkDrop
