import DarkDrop.Link.Connection

namespace DarkDrop
open Wire

namespace Order

def opened? : Order → Option (LinkId × Url)
  | .open link url => some (link, url)
  | _ => none

def sent? : Order → Option String
  | .send _ text => some text
  | _ => none

def closed? : Order → Option LinkId
  | .close link => some link
  | _ => none

def requests (os : List Order) : List ClientMessage :=
  os.filterMap fun o => o.sent?.bind fun t => (ClientMessage.decode t).toOption

end Order

structure Recorder where
  links : List (LinkId × Bool) := []
deriving DecidableEq, Repr

namespace Recorder

def lastOpened (r : Recorder) : Option LinkId := r.links.getLast?.map (·.1)

def openLink (r : Recorder) (link : LinkId) (url : Url) : Recorder × List Order :=
  (⟨r.links ++ [(link, false)]⟩, [.open link url])

def send (r : Recorder) (i : Nat) (text : String) : Except LinkError (List Order) :=
  match r.links[i]? with
  | some (link, false) => .ok [.send link text]
  | _ => .error .closed

def close (r : Recorder) (i : Nat) : Recorder × List Order :=
  match r.links[i]? with
  | some (link, false) => (⟨r.links.set i (link, true)⟩, [.close link])
  | _ => (r, [])

end Recorder
end DarkDrop
