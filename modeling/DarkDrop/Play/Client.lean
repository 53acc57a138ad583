import DarkDrop.Link.Error
import DarkDrop.Play.Screen
import DarkDrop.Play.Session
import DarkDrop.Text.Blank
import DarkDrop.Url.Edit

namespace DarkDrop
open Wire

inductive Command where
  | login (user : String)
  | createSession
  | joinSession (room : String)
  | leaveSession
  | startGame
  | play (column : UInt64)
  | disconnect
  | abandonQuickJoin
  | forgetCachedUser
  | quit
deriving DecidableEq, Repr

inductive Effect where
  | render
  | quit
  | notify (text : String)
  | connect (user : String)
  | disconnect
  | createSession
  | joinSession (room : String)
  | leaveSession
  | requestSession
  | startGame
  | play (column : UInt64)
  | cacheUser (user : String)
  | clearCachedUser
deriving DecidableEq, Repr

inductive Signal where
  | connecting
  | connected (user : String)
  | disconnected
  | connectionFailed (reason : String)
  | server (m : ServerMessage)
  | undecodable (reason : String)
  | rejected (reason : String)
deriving DecidableEq, Repr

structure Client where
  screen : Screen := .login
  session : Session := {}
  game : Game := {}
  link : LinkStatus := .offline
  pendingRoom : Option String := none
  cachedUser : Option String := none
deriving DecidableEq, Repr, Inhabited

namespace Client

def new (pendingRoom : Option String) : Client :=
  { screen := if pendingRoom.isSome then .quickJoin else .login, pendingRoom := pendingRoom }

def setCachedUser (c : Client) (user : Option String) : Client :=
  { c with cachedUser := user.filter (! ·.isEmpty) }

def move (c : Client) (t : Trigger) : Client := { c with screen := c.screen.after t }

def forget (c : Client) : Client := { c with session := c.session.reset, game := {} }

def start (c : Client) : Client × List Effect :=
  match c.pendingRoom.map checkRoomId with
  | some (.error e) =>
    ({ c with pendingRoom := none }.move .quickJoinAbandoned, [.notify e.message, .render])
  | _ => (c, [.render])

def accepts (c : Client) : Command → Bool
  | .login _ => c.screen = .login || c.screen = .quickJoin
  | .createSession | .joinSession _ => c.screen = .menu
  | .leaveSession | .startGame => c.screen = .lobby
  | .play _ => c.screen = .game
  | .disconnect => c.screen = .menu || c.screen = .lobby || c.screen = .game
  | .abandonQuickJoin | .forgetCachedUser => c.screen = .quickJoin
  | .quit => true

def execute (c : Client) : Command → Client × List Effect
  | .login user =>
    if (Text.trim user).isEmpty then (c, [.notify "User ID cannot be empty", .render])
    else (c, [.connect (Text.trim user), .render])
  | .createSession => (c, [.createSession, .render])
  | .joinSession room => (c, [.joinSession (Text.trim room), .render])
  | .leaveSession => (c, [.leaveSession, .render])
  | .startGame => (c, [.startGame, .render])
  | .play column => (c, [.play column, .render])
  | .disconnect => (c.forget.move .disconnected, [.disconnect, .render])
  | .abandonQuickJoin =>
    ({ c with pendingRoom := none }.move .quickJoinAbandoned, [.disconnect, .render])
  | .forgetCachedUser => ({ c with cachedUser := none }, [.clearCachedUser, .render])
  | .quit => (c, [.quit])

def command (c : Client) (cmd : Command) : Client × List Effect :=
  if c.accepts cmd then c.execute cmd
  else (c, [.notify ("Not available on the " ++ c.screen.name ++ " screen."), .render])

def roomToJoin (c : Client) : Option String :=
  if c.screen = .quickJoin then c.pendingRoom else none

def onConnected (c : Client) (user : String) : Client × List Effect :=
  let joins := match c.roomToJoin with
    | some room => [.joinSession room]
    | none => []
  let online : Client :=
    { c with
      link := .online
      session := { c.session with userId := user }
      pendingRoom := if c.screen = .quickJoin then none else c.pendingRoom
      cachedUser := some user }
  (online.move .loginSucceeded,
    [.notify "Connected.", .requestSession] ++ joins ++ [.cacheUser user, .render])

def onMessage (c : Client) : ServerMessage → Client × Option String
  | .clientJoined id sessionId members =>
    let c := { c with session := { c.session with members := members } }
    if c.session.isLocal id then
      ({ c with session := { c.session with sessionId := sessionId } }.move .localJoined,
        some (if members.length = 1 then "Created New Session!" else "Joined Session!"))
    else (c, some ("User " ++ id ++ " Joined!"))
  | .clientLeft id _ _ =>
    if c.session.isLocal id then
      ({ c with session := c.session.leave, game := {} }.move .localLeft, some "Left the Session.")
    else
      ({ c with session := { c.session with members := c.session.members.filter (· != id) } },
        some ("User " ++ id ++ " Left!"))
  | .gameStarted g => ({ c with game := .ofSnapshot g }.move .gameStarted, some "Game is starting!")
  | .sessionResponse sessionId members g =>
    ({ c with
        session := { c.session with sessionId := sessionId, members := members }
        game := (g.map Game.ofSnapshot).getD {} }.move (.sessionResumed g.isSome),
      some (if g.isSome then "Resuming Previous Game!" else "Resuming Previous Lobby!"))
  | .turnStart g => ({ c with game := .ofSnapshot g }, none)
  | .logicError message => (c, some message)
  | .cannotJoinInProgress =>
    (c.move .joinRejected, some "Cannot join a game that is already in progress.")
  | .gameEnded winner board =>
    ({ c with game := { c.game with pendingMoves := board } }.move .gameEnded, some (winner ++ " won!"))

def hear (c : Client) : Signal → Client × List Effect
  | .connecting => ({ c with link := .connecting }, [.render])
  | .connected user => c.onConnected user
  | .disconnected =>
    ({ c.forget with link := .offline }.move .transportClosed, [.notify "Disconnected..", .render])
  | .connectionFailed _ =>
    if c.screen = .quickJoin then
      ({ c with link := .offline, cachedUser := none },
        [.notify "Error: ID may already be taken.", .clearCachedUser, .render])
    else ({ c with link := .offline }, [.notify "Error: ID may already be taken.", .render])
  | .server m =>
    let (c, told) := c.onMessage m
    (c, told.toList.map .notify ++ [.render])
  | .undecodable reason =>
    (c, [.notify ("Ignored a malformed server message (" ++ reason ++ ")"), .render])
  | .rejected reason => (c, [.notify reason, .render])

def hearAll (c : Client) : List Signal → Client × List Effect
  | [] => (c, [])
  | s :: ss =>
    let (c, es) := c.hear s
    let (c, rest) := c.hearAll ss
    (c, es ++ rest)

def isLocalTurn (c : Client) : Bool := c.game.isTurnOf c.session.userId

def roomKey : List Char := "roomid".toList

def roomLink (c : Client) (base : Url) : Option Url :=
  if c.session.isJoined then some (base.withQuery roomKey c.session.sessionId.toList) else none

end Client
end DarkDrop
