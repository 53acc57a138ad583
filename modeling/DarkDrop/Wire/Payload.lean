import DarkDrop.Json.Form

namespace DarkDrop.Wire
open Json

structure Snapshot where
  turnIndex : UInt64 := 0
  playerOrder : List String := []
  playIndexes : List (List UInt64) := []
deriving DecidableEq, Repr, Inhabited

structure ServerPayload where
  sessionId : Option String := none
  clientId : Option String := none
  members : Option (List String) := none
  game : Option Snapshot := none
deriving DecidableEq, Repr, Inhabited

structure ClientPayload where
  sessionId : Option String := none
  column : Option UInt64 := none
  targets : Option (List String) := none
deriving DecidableEq, Repr, Inhabited

structure Envelope (δ : Type) where
  code : UInt64
  message : Option String := none
  data : Option δ := none
deriving DecidableEq, Repr

namespace Snapshot

structure Draft where
  turnIndex : Option UInt64 := none
  playerOrder : Option (List String) := none
  playIndexes : Option (List (List UInt64)) := none

def record : Record Draft Snapshot where
  name := "GameData"
  fields := [
    .of "turn_index" (·.turnIndex) (fun d x => { d with turnIndex := some x }) (.count "usize"),
    .of "player_order" (·.playerOrder) (fun d x => { d with playerOrder := some x }) (.list .text),
    .of "play_indexes" (·.playIndexes) (fun d x => { d with playIndexes := some x })
      (.list (.list (.count "u64")))]
  blank := {}
  complete d := .ok ⟨d.turnIndex.getD 0, d.playerOrder.getD [], d.playIndexes.getD []⟩

def form : Form Snapshot := record.form

def toValue (g : Snapshot) : Value :=
  .object ([("turn_index", .ofNat g.turnIndex), ("player_order", .ofStrings g.playerOrder)] ++
    if g.playIndexes.isEmpty then []
    else [("play_indexes", .list (g.playIndexes.map fun c => .list (c.map .ofNat)))])

end Snapshot

def memberOf (name : String) (write : α → Value) : Option α → List (String × Value)
  | none => []
  | some a => [(name, write a)]

namespace ServerPayload

structure Draft where
  sessionId : Option (Option String) := none
  clientId : Option (Option String) := none
  members : Option (Option (List String)) := none
  game : Option (Option Snapshot) := none

def record : Record Draft ServerPayload where
  name := "ServerEventData"
  fields := [
    .of "session_id" (·.sessionId) (fun d x => { d with sessionId := some x }) (.optional .text),
    .of "client_id" (·.clientId) (fun d x => { d with clientId := some x }) (.optional .text),
    .of "session_client_ids" (·.members) (fun d x => { d with members := some x })
      (.optional (.list .text)),
    .of "game_data" (·.game) (fun d x => { d with game := some x }) (.optional Snapshot.form)]
  blank := {}
  complete d := .ok ⟨d.sessionId.join, d.clientId.join, d.members.join, d.game.join⟩

def form : Form ServerPayload := record.form

def toValue (p : ServerPayload) : Value :=
  .object (memberOf "session_id" .ofString p.sessionId ++ memberOf "client_id" .ofString p.clientId ++
    memberOf "session_client_ids" .ofStrings p.members ++ memberOf "game_data" Snapshot.toValue p.game)

end ServerPayload

namespace ClientPayload

structure Draft where
  sessionId : Option (Option String) := none
  column : Option (Option UInt64) := none
  targets : Option (Option (List String)) := none

def record : Record Draft ClientPayload where
  name := "ClientEventData"
  fields := [
    .of "session_id" (·.sessionId) (fun d x => { d with sessionId := some x }) (.optional .text),
    .of "column" (·.column) (fun d x => { d with column := some x }) (.optional (.count "usize")),
    .of "target_ids" (·.targets) (fun d x => { d with targets := some x }) (.optional (.list .text))]
  blank := {}
  complete d := .ok ⟨d.sessionId.join, d.column.join, d.targets.join⟩

def form : Form ClientPayload := record.form

def toValue (p : ClientPayload) : Value :=
  .object (memberOf "session_id" .ofString p.sessionId ++ memberOf "column" .ofNat p.column ++
    memberOf "target_ids" .ofStrings p.targets)

end ClientPayload

namespace Envelope

structure Draft (δ : Type) where
  code : Option UInt64 := none
  message : Option (Option String) := none
  data : Option (Option δ) := none

def record (data : Form δ) : Record (Draft δ) (Envelope δ) where
  name := "Envelope"
  fields := [
    .of "event_code" (·.code) (fun d x => { d with code := some x }) (.count "u64"),
    .of "message" (·.message) (fun d x => { d with message := some x }) (.optional .text),
    .of "data" (·.data) (fun d x => { d with data := some x }) (.optional data)]
  blank := {}
  complete d := match d.code with
    | none => .error "event_code"
    | some code => .ok ⟨code, d.message.join, d.data.join⟩

def form (data : Form δ) : Form (Envelope δ) := (record data).form

def toValue (data : δ → Value) (e : Envelope δ) : Value :=
  .object ([("event_code", .ofNat e.code)] ++ memberOf "message" .ofString e.message ++
    memberOf "data" data e.data)

end Envelope
end DarkDrop.Wire
