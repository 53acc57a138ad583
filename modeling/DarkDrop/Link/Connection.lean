import DarkDrop.Link.Endpoint
import DarkDrop.Wire.Message

namespace DarkDrop
open Wire

abbrev LinkId := Nat

def linkLabel (id : LinkId) : String := "link#" ++ id.repr

inductive LinkEvent where
  | opened
  | message (text : String)
  | error (e : LinkError)
  | closed
deriving DecidableEq, Repr

structure Report where
  link : LinkId
  event : LinkEvent
deriving DecidableEq, Repr

inductive Order where
  | open (link : LinkId) (url : Url)
  | send (link : LinkId) (text : String)
  | close (link : LinkId)
deriving DecidableEq, Repr

inductive Notice where
  | opened (user : String)
  | closed
  | error (e : LinkError)
  | message (m : ServerMessage)
  | undecodable (reason : String)
deriving DecidableEq, Repr

inductive Phase where
  | idle
  | connecting (link : LinkId) (user : String)
  | open (link : LinkId) (user : String)
  | disconnecting (link : LinkId) (reconnectAs : Option String)
  | closed
deriving DecidableEq, Repr

-- `held` is the link that orders go to, `next` the number of the next one.
structure Connection where
  endpoint : Endpoint := {}
  phase : Phase := .idle
  held : Option LinkId := none
  next : LinkId := 1
deriving DecidableEq, Repr, Inhabited

structure Outcome where
  connection : Connection
  notices : List Notice := []
  orders : List Order := []

namespace Connection

def link? (c : Connection) : Option LinkId :=
  match c.phase with
  | .connecting link _ | .open link _ | .disconnecting link _ => some link
  | .idle | .closed => none

def user? (c : Connection) : Option String :=
  match c.phase with
  | .connecting _ user | .open _ user => some user
  | _ => none

def isConnecting (c : Connection) : Bool :=
  match c.phase with
  | .connecting .. => true
  | _ => false

def isOpen (c : Connection) : Bool :=
  match c.phase with
  | .open .. => c.held.isSome
  | _ => false

def closeHeld (c : Connection) : List Order :=
  match c.held with
  | some link => [.close link]
  | none => []

def openLink (c : Connection) (user : String) : Outcome :=
  match c.endpoint.url user with
  | .error e => { connection := c, notices := [.error e] }
  | .ok url =>
    { connection := { c with phase := .connecting c.next user, held := some c.next, next := c.next + 1 }
      orders := [.open c.next url] }

def connect (c : Connection) (user : String) : Outcome :=
  match c.endpoint.url user with
  | .error e => { connection := c, notices := [.error e] }
  | .ok _ =>
    match c.phase with
    | .connecting link _ | .open link _ =>
      { connection := { c with phase := .disconnecting link (some user) }, orders := c.closeHeld }
    | .disconnecting link _ => { connection := { c with phase := .disconnecting link (some user) } }
    | .idle | .closed => c.openLink user

def disconnect (c : Connection) : Outcome :=
  match c.phase with
  | .connecting link _ | .open link _ =>
    { connection := { c with phase := .disconnecting link none }, orders := c.closeHeld }
  | .disconnecting link _ => { connection := { c with phase := .disconnecting link none } }
  | .idle | .closed => { connection := c }

def send (c : Connection) (m : ClientMessage) : Outcome :=
  match c.phase, c.held with
  | .connecting .., some link | .open .., some link =>
    { connection := c, orders := [.send link m.encode] }
  | _, _ => { connection := c }

def joinSession (c : Connection) (room : String) : Except RoomIdError Outcome :=
  (checkRoomId room).map fun _ => c.send (.joinSession room)

def noticeOfText (text : String) : Notice :=
  match ServerMessage.decode text with
  | .ok m => .message m
  | .error e => .undecodable e.message

def onOpened (c : Connection) : Outcome :=
  match c.phase with
  | .connecting link user =>
    { connection := { c with phase := .open link user }, notices := [.opened user] }
  | _ => { connection := c }

def onClosed (c : Connection) : Outcome :=
  let gone := { c with phase := .closed, held := none }
  match c.phase with
  | .disconnecting _ (some user) =>
    let next := gone.openLink user
    { next with notices := .closed :: next.notices }
  | _ => { connection := gone, notices := [.closed] }

def isClosing (c : Connection) : Bool :=
  match c.phase with
  | .disconnecting .. => true
  | _ => false

-- Hears a link. Only the current one counts, and once it is asked to close only its end.
def receive (c : Connection) (r : Report) : Outcome :=
  if c.link? ≠ some r.link then { connection := c }
  else if c.isClosing && r.event ≠ .closed then { connection := c }
  else match r.event with
    | .opened => c.onOpened
    | .message text => { connection := c, notices := [noticeOfText text] }
    | .error e => { connection := c, notices := [.error e] }
    | .closed => c.onClosed

end Connection
end DarkDrop
