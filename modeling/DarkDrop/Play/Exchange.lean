import DarkDrop.Link.Connection
import DarkDrop.Play.Client

namespace DarkDrop
open Wire

structure Exchange where
  connection : Connection
  orders : List Order := []
  signals : List Signal := []

def Signal.ofNotice : Notice → Signal
  | .opened user => .connected user
  | .closed => .disconnected
  | .error e => .connectionFailed e.message
  | .message m => .server m
  | .undecodable reason => .undecodable reason

namespace Connection

def perform (c : Connection) : Effect → Exchange
  | .connect user =>
    let r := c.connect user
    ⟨r.connection, r.orders, .connecting :: r.notices.map .ofNotice⟩
  | .disconnect => ⟨c.disconnect.connection, c.disconnect.orders, []⟩
  | .createSession => ⟨c, (c.send .createSession).orders, []⟩
  | .joinSession room =>
    match c.joinSession room with
    | .ok r => ⟨r.connection, r.orders, []⟩
    | .error e => ⟨c, [], [.rejected e.message]⟩
  | .leaveSession => ⟨c, (c.send .leaveSession).orders, []⟩
  | .requestSession => ⟨c, (c.send .sessionRequest).orders, []⟩
  | .startGame => ⟨c, (c.send .startGame).orders, []⟩
  | .play column => ⟨c, (c.send (.play column)).orders, []⟩
  | .render | .quit | .notify _ | .cacheUser _ | .clearCachedUser => ⟨c, [], []⟩

-- Hears a link. Where the end of one opens the next, the client hears of connecting once more.
def hear (c : Connection) (r : Report) : Exchange :=
  let o := c.receive r
  let again := o.notices.contains .closed && o.connection.isConnecting
  ⟨o.connection, o.orders, o.notices.map .ofNotice ++ if again then [.connecting] else []⟩

end Connection
end DarkDrop
