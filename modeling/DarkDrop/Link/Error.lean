namespace DarkDrop

inductive LinkError where
  | invalidEndpoint (detail : String)
  | closed
  | connection (detail : String)
  | stream (detail : String)
deriving DecidableEq, Repr

def LinkError.message : LinkError → String
  | invalidEndpoint d => "invalid endpoint: " ++ d
  | closed => "link closed"
  | connection d => "connection failed: " ++ d
  | stream d => "stream error: " ++ d

def roomIdLength : Nat := 5

structure RoomIdError where
  actual : Nat
deriving DecidableEq, Repr

def RoomIdError.message (_ : RoomIdError) : String :=
  "SessionID needs to be " ++ roomIdLength.repr ++ " characters"

def checkRoomId (id : String) : Except RoomIdError Unit :=
  if id.length = roomIdLength then .ok () else .error ⟨id.length⟩

end DarkDrop
