import DarkDrop.Play.Run
import DarkDrop.Play.TypedLine

namespace DarkDrop

structure Budget where
  renders : Option Nat := none
  notices : Option Nat := none
  memories : Option Nat := none
deriving DecidableEq, Repr

namespace Budget

def isShown : Deed → Bool
  | .shown _ => true
  | _ => false

def isTold : Deed → Bool
  | .told _ => true
  | _ => false

def isRemembered : Deed → Bool
  | .remembered _ => true
  | _ => false

def exceeds (limit : Option Nat) (kind : Deed → Bool) (log : List Deed) : Bool :=
  limit.any (· < log.countP kind)

def refusal (b : Budget) : Refusal := fun log =>
  if exceeds b.renders isShown log then some "render"
  else if exceeds b.notices isTold log then some "notify"
  else if exceeds b.memories isRemembered log then some "cache"
  else none

end Budget

namespace Run

def line (refusal : Refusal) (r : Run) (text : String) : Run × Progress :=
  let parsed := TypedLine.read text.toList r.memory
  match parsed.command? with
  | some c => r.command refusal c
  | none =>
    match parsed.complaint? with
    | some complaint => (r.did (.complained complaint), .going)
    | none => (r, .going)

def take (refusal : Refusal) (r : Run) (i : Input) : Run × Progress :=
  let r := r.did (.took i)
  match i with
  | .command c => r.command refusal c
  | .line text => r.line refusal text
  | .report x => r.report refusal x
  | .failure reason => (r, .failed reason)

def follow (refusal : Refusal) (r : Run) : List Input → Run × Progress
  | [] => (r, .ended)
  | i :: is =>
    match r.take refusal i with
    | (r, .going) => follow refusal r is
    | ended => ended

-- A whole run, and why its front end failed if it did. Only a run that ends well closes its link.
def play (refusal : Refusal) (r : Run) (is : List Input) : Run × Option String :=
  let ended := match r.start refusal with
    | (r, .going) => r.follow refusal is
    | ended => ended
  match ended with
  | (r, .failed reason) => (r, some reason)
  | (r, _) => (r.leave, none)

end Run
end DarkDrop
