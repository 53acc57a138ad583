import DarkDrop.Play.Exchange

namespace DarkDrop

inductive Input where
  | command (c : Command)
  | line (text : String)
  | report (r : Report)
  | failure (reason : String)
deriving DecidableEq, Repr

inductive Deed where
  | took (i : Input)
  | complained (text : String)
  | shown (c : Client)
  | told (text : String)
  | remembered (user : Option String)
  | asked (o : Order)
deriving DecidableEq, Repr

def Effect.deed? (c : Client) : Effect → Option Deed
  | .render => some (.shown c)
  | .notify text => some (.told text)
  | .cacheUser user => some (.remembered (some user))
  | .clearCachedUser => some (.remembered none)
  | _ => none

-- More than the weight of all effects that an effect leads to.
def Effect.weight : Effect → Nat
  | .connect _ => 5
  | .joinSession _ => 3
  | _ => 1

def Effect.weigh (es : List Effect) : Nat := es.foldr (fun e n => e.weight + n) 0

theorem Effect.weigh_append (es more : List Effect) : weigh (es ++ more) = weigh es + weigh more := by
  induction es with
  | nil => simp [weigh]
  | cons e es ih =>
    simp only [weigh, List.cons_append, List.foldr_cons] at ih ⊢
    omega

inductive Progress where
  | going | ended
  | failed (reason : String)
deriving DecidableEq, Repr

abbrev Refusal := List Deed → Option String

def Refusal.never : Refusal := fun _ => none

structure Run where
  client : Client
  connection : Connection
  memory : Option String := none
  log : List Deed := []
deriving DecidableEq, Repr, Inhabited

theorem Connection.notices_connect (c : Connection) (user : String) :
    (c.connect user).notices = [] ∨ ∃ e, (c.connect user).notices = [.error e] := by
  unfold Connection.connect
  split
  · exact .inr ⟨_, rfl⟩
  · split
    · exact .inl rfl
    · exact .inl rfl
    · exact .inl rfl
    all_goals
      unfold Connection.openLink
      split
      · exact .inr ⟨_, rfl⟩
      · exact .inl rfl

namespace Client

theorem weigh_hearAll_perform (c : Client) (k : Connection) (e : Effect) :
    Effect.weigh (c.hearAll (k.perform e).signals).2 < e.weight := by
  cases e with
  | connect user =>
    rcases k.notices_connect user with h | ⟨x, h⟩
    · simp [Connection.perform, h, hearAll, hear, Effect.weigh, Effect.weight]
    · simp only [Connection.perform, h, List.map_cons, List.map_nil, Signal.ofNotice, hearAll, hear]
      by_cases quick : c.screen = .quickJoin <;> simp [quick, Effect.weigh, Effect.weight]
  | joinSession room =>
    simp only [Connection.perform]
    split <;> simp [hearAll, hear, Effect.weigh, Effect.weight]
  | _ => simp [Connection.perform, hearAll, Effect.weigh, Effect.weight]

end Client

namespace Run

def did (r : Run) (d : Deed) : Run :=
  { r with
    memory := match d with
      | .remembered user => user
      | _ => r.memory
    log := r.log ++ [d] }

def ask (r : Run) (os : List Order) : Run := { r with log := r.log ++ os.map .asked }

def perform (r : Run) (e : Effect) : Run × List Effect :=
  let x := r.connection.perform e
  let answer := r.client.hearAll x.signals
  ({ r.ask x.orders with client := answer.1, connection := x.connection }, answer.2)

-- Carries out effects in their order. What they lead to is put at the end.
def drain (refusal : Refusal) (r : Run) : List Effect → Run × Progress
  | [] => (r, .going)
  | e :: es =>
    match e.deed? r.client with
    | some d =>
      match refusal (r.did d).log with
      | some reason => (r.did d, .failed reason)
      | none => drain refusal (r.did d) es
    | none =>
      if e = .quit then (r, .ended)
      else drain refusal (r.perform e).1 (es ++ (r.perform e).2)
termination_by es => Effect.weigh es
decreasing_by
  · have : 0 < e.weight := by cases e <;> simp [Effect.weight]
    simp only [Effect.weigh, List.foldr_cons]
    omega
  · have lighter := r.client.weigh_hearAll_perform r.connection e
    rw [Effect.weigh_append]
    simp only [Effect.weigh, perform, List.foldr_cons] at lighter ⊢
    omega

def hearAll (refusal : Refusal) (r : Run) : List Signal → Run × Progress
  | [] => (r, .going)
  | s :: ss =>
    let answer := r.client.hear s
    match drain refusal { r with client := answer.1 } answer.2 with
    | (r, .going) => hearAll refusal r ss
    | ended => ended

def command (refusal : Refusal) (r : Run) (c : Command) : Run × Progress :=
  let answer := r.client.command c
  drain refusal { r with client := answer.1 } answer.2

def report (refusal : Refusal) (r : Run) (x : Report) : Run × Progress :=
  let heard := r.connection.hear x
  hearAll refusal { r.ask heard.orders with connection := heard.connection } heard.signals

def new (endpoint : Endpoint) (pendingRoom memory : Option String) : Run where
  client := (Client.new pendingRoom).setCachedUser memory
  connection := { endpoint := endpoint }
  memory := memory

def start (refusal : Refusal) (r : Run) : Run × Progress :=
  let answer := r.client.start
  drain refusal { r with client := answer.1 } answer.2

def leave (r : Run) : Run :=
  { r.ask r.connection.disconnect.orders with connection := r.connection.disconnect.connection }

def since (r earlier : Run) : List Deed := r.log.drop earlier.log.length

end Run
end DarkDrop
