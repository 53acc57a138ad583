import DarkDrop.Terminal.Console

namespace DarkDrop

inductive SittingStep where
  | report (r : Report)
  | events (es : List TerminalEvent)
deriving DecidableEq, Repr

-- An entry of the log of a sitting. A look sees the console, and as it was at each drawing since
-- the look before.
inductive SittingEntry where
  | look (c : Console) (drawn : List Console)
  | step
  | command (c : Command)
  | deed (d : Deed)
deriving DecidableEq, Repr

structure Sitting where
  run : Run
  console : Console
  drawn : List Console := []
  log : List SittingEntry := []
deriving DecidableEq, Repr

namespace Sitting

def note (s : Sitting) (e : SittingEntry) : Sitting := { s with log := s.log ++ [e] }

def look (s : Sitting) : Sitting := { s.note (.look s.console s.drawn) with drawn := [] }

def observe (s : Sitting) (d : Deed) : Sitting :=
  let change := s.console.observe d
  { s.note (.deed d) with
    console := change.console
    drawn := if change.drawn then s.drawn ++ [change.console] else s.drawn }

def follow (s : Sitting) (r : Run) : Sitting :=
  { (r.since s.run).foldl observe s with run := r }

def advance (s : Sitting) (x : Run × Progress) : Sitting × Progress := (s.follow x.1, x.2)

def start (s : Sitting) : Sitting × Progress := s.advance (s.run.start .never)

theorem observe_queue (s : Sitting) (d : Deed) : (s.observe d).console.queue = s.console.queue :=
  s.console.observe_queue d

theorem advance_queue (s : Sitting) (x : Run × Progress) :
    (s.advance x).1.console.queue = s.console.queue := by
  rw [advance, follow]
  generalize x.1.since s.run = deeds
  induction deeds generalizing s with
  | nil => rfl
  | cons d deeds ih => exact (ih (s.observe d)).trans (s.observe_queue d)

def serve (s : Sitting) : Sitting × Progress :=
  let reading := s.look.console.next s.run.memory []
  match _given : reading.command with
  | none => (s.look, .going)
  | some c =>
    let served := advance { s.look with console := reading.console } (s.run.command .never c)
    if served.2 = .going then serve served.1 else served
termination_by s.console.queue.length
decreasing_by
  have shorter := s.look.console.next_shorter s.run.memory [] c _given
  rw [advance_queue]
  exact Nat.lt_of_le_of_lt (Nat.le_add_right _ _) shorter

-- Takes events. If some are left behind a command, there is a look before they are taken.
def attend (s : Sitting) (es : List TerminalEvent) : Sitting × Progress :=
  let reading := s.console.next s.run.memory es
  let typed := { s with console := reading.console, drawn := s.drawn ++ reading.drawn }
  match _given : reading.command with
  | none => (typed, .going)
  | some c =>
    let served := (typed.note (.command c)).advance (s.run.command .never c)
    if served.2 = .going ∧ reading.rest ≠ [] then attend served.1.look reading.rest else served
termination_by s.console.queue.length + es.length
decreasing_by
  have shorter := s.console.next_shorter s.run.memory es c _given
  have kept := advance_queue (typed.note (.command c)) (s.run.command .never c)
  rw [look, note, kept]
  exact shorter

def step (s : Sitting) (x : SittingStep) : Sitting × Progress :=
  let s := s.note .step
  match x with
  | .report r => s.advance (s.run.report .never r)
  | .events es => s.attend es

def steps (s : Sitting) : List SittingStep → Sitting × Progress
  | [] => (s.serve.1, .ended)
  | x :: xs =>
    match s.serve with
    | (s, .going) =>
      match s.step x with
      | (s, .going) => steps s xs
      | ended => ended
    | ended => ended

def play (s : Sitting) (xs : List SittingStep) : Sitting :=
  let ended := match s.start with
    | (s, .going) => s.steps xs
    | ended => ended
  ended.1.follow ended.1.run.leave

end Sitting
end DarkDrop
