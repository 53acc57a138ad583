namespace DarkDrop.Wire

inductive ServerCode where
  | clientJoined | clientLeft | gameStarted | sessionResponse
  | turnStart | logicError | cannotJoinInProgress | gameEnded
deriving DecidableEq, Repr

inductive ClientCode where
  | joinSession | createSession | leaveSession | sessionRequest | startGame | play
deriving DecidableEq, Repr

namespace ServerCode

def all : List ServerCode :=
  [clientJoined, clientLeft, gameStarted, sessionResponse,
    turnStart, logicError, cannotJoinInProgress, gameEnded]

def toNumber : ServerCode → UInt64
  | clientJoined => 1
  | clientLeft => 2
  | gameStarted => 3
  | sessionResponse => 4
  | turnStart => 5
  | logicError => 6
  | cannotJoinInProgress => 7
  | gameEnded => 8

def ofNumber? (n : UInt64) : Option ServerCode := all.find? (·.toNumber == n)

def name : ServerCode → String
  | clientJoined => "ClientJoined"
  | clientLeft => "ClientLeft"
  | gameStarted => "GameStarted"
  | sessionResponse => "SessionResponse"
  | turnStart => "TurnStart"
  | logicError => "LogicError"
  | cannotJoinInProgress => "CannotJoinInProgress"
  | gameEnded => "GameEnded"

def label (c : ServerCode) : String := c.name ++ "(" ++ c.toNumber.toNat.repr ++ ")"

theorem ofNumber?_toNumber (c : ServerCode) : ofNumber? c.toNumber = some c := by
  cases c <;> rfl

theorem toNumber_of_ofNumber? {n c} (h : ofNumber? n = some c) : c.toNumber = n := by
  simpa using List.find?_some h

end ServerCode

namespace ClientCode

def all : List ClientCode :=
  [joinSession, createSession, leaveSession, sessionRequest, startGame, play]

def toNumber : ClientCode → UInt64
  | joinSession => 1
  | createSession => 2
  | leaveSession => 3
  | sessionRequest => 4
  | startGame => 5
  | play => 6

def ofNumber? (n : UInt64) : Option ClientCode := all.find? (·.toNumber == n)

def name : ClientCode → String
  | joinSession => "JoinSession"
  | createSession => "CreateSession"
  | leaveSession => "LeaveSession"
  | sessionRequest => "SessionRequest"
  | startGame => "StartGame"
  | play => "Play"

def label (c : ClientCode) : String := c.name ++ "(" ++ c.toNumber.toNat.repr ++ ")"

theorem ofNumber?_toNumber (c : ClientCode) : ofNumber? c.toNumber = some c := by
  cases c <;> rfl

theorem toNumber_of_ofNumber? {n c} (h : ofNumber? n = some c) : c.toNumber = n := by
  simpa using List.find?_some h

end ClientCode
end DarkDrop.Wire
