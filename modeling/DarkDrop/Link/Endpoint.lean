import DarkDrop.Link.Error
import DarkDrop.Url.Edit

namespace DarkDrop

structure Endpoint where
  host : String := "localhost:8000"
  path : String := "api/ws"
  secure : Bool := false
deriving DecidableEq, Repr, Inhabited

namespace Endpoint

def base (e : Endpoint) : Except LinkError Url :=
  match Url.ofString ((if e.secure then "wss" else "ws") ++ "://" ++ e.host ++ "/") with
  | .error x => .error (.invalidEndpoint (e.host ++ ": " ++ x.message))
  | .ok u => .ok u

def segments (e : Endpoint) : List (List Char) :=
  (Text.splitAt '/' e.path.toList).filter (! ·.isEmpty)

def url (e : Endpoint) (user : String) : Except LinkError Url :=
  if user.isEmpty then .error (.invalidEndpoint "user id is empty")
  else e.base.map (·.withSegments (e.segments ++ [user.toList]))

end Endpoint
end DarkDrop
