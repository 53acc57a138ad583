import DarkDrop.Wire.Message

namespace DarkDrop
open Wire

inductive LinkStatus where
  | offline | connecting | online
deriving DecidableEq, Repr, Inhabited

structure Session where
  sessionId : String := ""
  userId : String := ""
  members : List String := []
deriving DecidableEq, Repr, Inhabited

namespace Session

def isJoined (s : Session) : Bool := ! s.sessionId.isEmpty

-- Whether an id is that of the local user. An empty one is nobody's.
def isLocal (s : Session) (id : String) : Bool := ! s.userId.isEmpty && s.userId == id

def leave (s : Session) : Session := { s with sessionId := "", members := [] }

def reset (_ : Session) : Session := {}

end Session

structure Game where
  turnOrder : List String := []
  turnIndex : UInt64 := 0
  pendingMoves : List (List UInt64) := []
deriving DecidableEq, Repr, Inhabited

namespace Game

def ofSnapshot (g : Snapshot) : Game := ⟨g.playerOrder, g.turnIndex, g.playIndexes⟩

def currentPlayer? (g : Game) : Option String := g.turnOrder[g.turnIndex.toNat]?

def isTurnOf (g : Game) (user : String) : Bool := g.currentPlayer? == some user

def columns (g : Game) : Nat := g.pendingMoves.length

def isEmpty (g : Game) : Bool := g.turnOrder.isEmpty && g.pendingMoves.isEmpty

end Game
end DarkDrop
