import DarkDrop.Wire.Code
import DarkDrop.Wire.Payload

namespace DarkDrop.Wire
open Json

inductive ServerMessage where
  | clientJoined (clientId sessionId : String) (members : List String)
  | clientLeft (clientId sessionId : String) (members : List String)
  | gameStarted (game : Snapshot)
  | sessionResponse (sessionId : String) (members : List String) (game : Option Snapshot)
  | turnStart (game : Snapshot)
  | logicError (message : String)
  | cannotJoinInProgress
  | gameEnded (winner : String) (playIndexes : List (List UInt64))
deriving DecidableEq, Repr

inductive ClientMessage where
  | joinSession (sessionId : String)
  | createSession
  | leaveSession
  | sessionRequest
  | startGame
  | play (column : UInt64)
deriving DecidableEq, Repr

inductive FrameError where
  | malformed (misfit : Misfit)
  | unknownServerCode (code : UInt64)
  | unknownClientCode (code : UInt64)
  | invalidPayload (code : UInt64) (cause : Cause)
  | missingField (code : UInt64) (field : String)
deriving DecidableEq, Repr

def FrameError.message : FrameError → String
  | malformed m => "malformed envelope: " ++ m.message
  | unknownServerCode n => "unknown server event code " ++ n.toNat.repr
  | unknownClientCode n => "unknown client event code " ++ n.toNat.repr
  | invalidPayload n c => "invalid payload for event code " ++ n.toNat.repr ++ ": " ++ c.message
  | missingField n f => "event code " ++ n.toNat.repr ++ " requires field `" ++ f ++ "`"

-- The envelope of a frame; its own braces are one level of the depth.
def openEnvelope (text : String) : Except FrameError (Envelope Value) :=
  ((Envelope.form (.any (maxDepth - 1))).read.readAll text.toList).mapError .malformed

def payload [Inhabited π] (form : Form π) (code : UInt64) : Option Value → Except FrameError π
  | none => .ok default
  | some v => (form.ofValue v).mapError (.invalidPayload code)

namespace ServerMessage

def code : ServerMessage → ServerCode
  | clientJoined .. => .clientJoined
  | clientLeft .. => .clientLeft
  | gameStarted _ => .gameStarted
  | sessionResponse .. => .sessionResponse
  | turnStart _ => .turnStart
  | logicError _ => .logicError
  | cannotJoinInProgress => .cannotJoinInProgress
  | gameEnded .. => .gameEnded

def ofParts (code : ServerCode) (message : Option String) (p : ServerPayload) : ServerMessage :=
  match code with
  | .clientJoined => clientJoined (p.clientId.getD "") (p.sessionId.getD "") (p.members.getD [])
  | .clientLeft => clientLeft (p.clientId.getD "") (p.sessionId.getD "") (p.members.getD [])
  | .gameStarted => gameStarted (p.game.getD {})
  | .sessionResponse => sessionResponse (p.sessionId.getD "") (p.members.getD []) p.game
  | .turnStart => turnStart (p.game.getD {})
  | .logicError => logicError (message.getD "")
  | .cannotJoinInProgress => cannotJoinInProgress
  | .gameEnded => gameEnded (p.clientId.getD "") ((p.game.map (·.playIndexes)).getD [])

def message? : ServerMessage → Option String
  | logicError m => some m
  | _ => none

def payload? : ServerMessage → Option ServerPayload
  | clientJoined c s ms => some { sessionId := some s, clientId := some c, members := some ms }
  | clientLeft c s ms => some { sessionId := some s, clientId := some c, members := some ms }
  | gameStarted g => some { game := some g }
  | turnStart g => some { game := some g }
  | sessionResponse s ms g => some { sessionId := some s, members := some ms, game := g }
  | logicError _ => none
  | cannotJoinInProgress => none
  | gameEnded w b => some { clientId := some w, game := some { playIndexes := b } }

def envelope (m : ServerMessage) : Envelope ServerPayload :=
  ⟨m.code.toNumber, m.message?, m.payload?⟩

def encode (m : ServerMessage) : String :=
  .ofList (m.envelope.toValue ServerPayload.toValue).write

def ofEnvelope (e : Envelope Value) : Except FrameError ServerMessage := do
  match ServerCode.ofNumber? e.code with
  | none => .error (.unknownServerCode e.code)
  | some code => return ofParts code e.message (← payload ServerPayload.form e.code e.data)

def decode (text : String) : Except FrameError ServerMessage := do
  ofEnvelope (← openEnvelope text)

end ServerMessage

namespace ClientMessage

def code : ClientMessage → ClientCode
  | joinSession _ => .joinSession
  | createSession => .createSession
  | leaveSession => .leaveSession
  | sessionRequest => .sessionRequest
  | startGame => .startGame
  | play _ => .play

def payload? : ClientMessage → Option ClientPayload
  | joinSession s => some { sessionId := some s }
  | play c => some { column := some c }
  | _ => none

def envelope (m : ClientMessage) : Envelope ClientPayload :=
  ⟨m.code.toNumber, none, m.payload?⟩

def encode (m : ClientMessage) : String :=
  .ofList (m.envelope.toValue ClientPayload.toValue).write

def ofParts (code : ClientCode) (p : ClientPayload) : Except String ClientMessage :=
  match code with
  | .joinSession => match p.sessionId with
    | none => .error "session_id"
    | some s => .ok (joinSession s)
  | .createSession => .ok createSession
  | .leaveSession => .ok leaveSession
  | .sessionRequest => .ok sessionRequest
  | .startGame => .ok startGame
  | .play => match p.column with
    | none => .error "column"
    | some c => .ok (play c)

def ofEnvelope (e : Envelope Value) : Except FrameError ClientMessage := do
  match ClientCode.ofNumber? e.code with
  | none => .error (.unknownClientCode e.code)
  | some code =>
    let p ← payload ClientPayload.form e.code e.data
    (ofParts code p).mapError (.missingField e.code)

def decode (text : String) : Except FrameError ClientMessage := do
  ofEnvelope (← openEnvelope text)

end ClientMessage
end DarkDrop.Wire
