import DarkDrop.Play.Client
import DarkDrop.Terminal.Board

namespace DarkDrop

structure Page where
  title : String := ""
  body : List String := []
  hint : String := ""
  link : LinkStatus := .offline
  user : String := ""
deriving DecidableEq, Repr, Inhabited

namespace Page

def loginBody (c : Client) : List String :=
  "Enter a user id to connect." :: if c.link = .connecting then ["Connecting..."] else []

def quickJoinBody (c : Client) : List String :=
  [match c.pendingRoom with
    | some room => "Joining room " ++ room ++ "."
    | none => "Joining room...",
  match c.link, c.cachedUser with
    | .offline, some user => "Join as " ++ user ++ "? (/yes)"
    | .offline, none => "Enter a user id to join with."
    | .connecting, _ => "Connecting..."
    | .online, _ => "Connected as " ++ c.session.userId ++ ". Waiting for the room..."]

def menuBody (c : Client) : List String := ["Logged in as " ++ c.session.userId ++ "."]

def playerLine (s : Session) (member : String) : String :=
  "  " ++ member ++ if s.isLocal member then " (you)" else ""

def lobbyBody (c : Client) (linkBase : Url) : List String :=
  ["Room: " ++ c.session.sessionId] ++
  ((c.roomLink linkBase).map fun u => "Link: " ++ u.toString).toList ++
  ["", "Players:"] ++ c.session.members.map (playerLine c.session)

def turnLine (c : Client) : String :=
  if c.isLocalTurn then "Your Turn"
  else match c.game.currentPlayer? with
    | some player => player ++ "'s Turn"
    | none => "Waiting for the game..."

def gameBody (c : Client) : List String :=
  ["Players: " ++ ", ".intercalate c.game.turnOrder, "", turnLine c, ""] ++
  (Board.draw c.game.pendingMoves).map .ofList

def bodyOf (c : Client) (linkBase : Url) : List String :=
  match c.screen with
  | .login => loginBody c
  | .quickJoin => quickJoinBody c
  | .menu => menuBody c
  | .lobby => lobbyBody c linkBase
  | .game => gameBody c

def hintOf : Screen → String
  | .login => "<user id> | /quit"
  | .quickJoin => "/yes | <user id> | /forget | /back"
  | .menu => "/create | /join <room id> | /disconnect | /quit"
  | .lobby => "/start | /leave | /disconnect"
  | .game => "<column> | /play <column> | /disconnect"

def ofClient (c : Client) (linkBase : Url) : Page where
  title := c.screen.name
  body := bodyOf c linkBase
  hint := hintOf c.screen
  link := c.link
  user := c.session.userId

end Page
end DarkDrop
