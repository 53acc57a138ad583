namespace DarkDrop

inductive Screen where
  | login | menu | lobby | game | quickJoin
deriving DecidableEq, Repr, Inhabited

inductive Trigger where
  | loginSucceeded | localJoined | localLeft | gameStarted
  | sessionResumed (inGame : Bool)
  | joinRejected | gameEnded | disconnected | transportClosed
  | quickJoinRequested | quickJoinAbandoned
deriving DecidableEq, Repr

namespace Screen

-- The screen after a trigger. Quick join outlasts a login and a lost link.
def after : Screen → Trigger → Screen
  | quickJoin, .loginSucceeded => quickJoin
  | quickJoin, .transportClosed => quickJoin
  | _, .loginSucceeded | _, .localLeft | _, .joinRejected => menu
  | _, .localJoined | _, .sessionResumed false => lobby
  | _, .gameStarted | _, .sessionResumed true => game
  | s, .gameEnded => s
  | _, .disconnected | _, .transportClosed | _, .quickJoinAbandoned => login
  | _, .quickJoinRequested => quickJoin

def name : Screen → String
  | login => "Login"
  | menu => "Menu"
  | lobby => "Lobby"
  | game => "Game"
  | quickJoin => "Quick Join"

end Screen
end DarkDrop
