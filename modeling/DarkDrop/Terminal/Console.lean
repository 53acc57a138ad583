import DarkDrop.Play.Run
import DarkDrop.Play.TypedLine
import DarkDrop.Terminal.Picture

namespace DarkDrop

inductive KeyKind where
  | press | repeated | release
deriving DecidableEq, Repr

-- A key without a code here is one that means nothing: an arrow up, a function key.
structure KeyEvent where
  code : Option Key := none
  control : Bool := false
  kind : KeyKind := .press
deriving DecidableEq, Repr

-- Control-C leaves. No other letter minds what is held with it.
def KeyEvent.key? (e : KeyEvent) : Option Key :=
  match e.code with
  | some (.char 'c') => some (if e.control then .esc else .char 'c')
  | code => code

inductive TerminalEvent where
  | keyed (k : KeyEvent)
  | resize (width height : Nat)
  | other
deriving DecidableEq, Repr

namespace TerminalEvent

def key (k : Key) : TerminalEvent := keyed { code := some k }
def control (letter : Char) : TerminalEvent := keyed { code := some (.char letter), control := true }
def alt (letter : Char) : TerminalEvent := key (.char letter)

end TerminalEvent

-- The command that was queued last stands in front.
structure CommandQueue where
  commands : List Command := []
deriving DecidableEq, Repr

namespace CommandQueue

def push (q : CommandQueue) (c : Command) : CommandQueue := ⟨c :: q.commands⟩

def pop? (q : CommandQueue) : Option (Command × CommandQueue) :=
  q.commands.getLast?.map fun c => (c, ⟨q.commands.dropLast⟩)

def length (q : CommandQueue) : Nat := q.commands.length

instance : Coe (List Command) CommandQueue := ⟨fun cs => cs.foldl push {}⟩

theorem pop_shorter (q rest : CommandQueue) (c : Command) (popped : q.pop? = some (c, rest)) :
    rest.length + 1 = q.length := by
  obtain ⟨last, found, same⟩ := Option.map_eq_some_iff.mp popped
  cases same
  have some : 0 < q.commands.length := List.length_pos_iff.mpr (List.getLast?_isSome.mp (by rw [found]; rfl))
  rw [length, length, List.length_dropLast]
  omega

end CommandQueue

structure Console where
  width : Nat
  height : Nat
  linkBase : Url
  queue : CommandQueue := {}
  page : Page := {}
  editor : LineEditor := {}
  notices : List String := []
  alternateScreen : Bool := true
deriving DecidableEq, Repr

namespace Console

def enqueue (c : Console) (command : Command) : Console := { c with queue := c.queue.push command }

def noticeLimit : Nat := 16

def pushNotice (c : Console) (text : String) : Console :=
  { c with notices := (text :: c.notices).take noticeLimit }

def picture (c : Console) : Picture := Picture.draw c.width c.height c.page c.editor c.notices

structure Change where
  console : Console
  drawn : Bool := false
  command : Option Command := none

def observe (c : Console) : Deed → Change
  | .shown client => { console := { c with page := Page.ofClient client c.linkBase }, drawn := true }
  | .told text => { console := c.pushNotice text, drawn := true }
  | _ => { console := c }

def submit (c : Console) (remembered : Option String) (line : List Char) : Change :=
  let parsed := TypedLine.read line remembered
  { console := (parsed.complaint?.map c.pushNotice).getD c, drawn := true, command := parsed.command? }

def press (c : Console) (remembered : Option String) (k : Key) : Change :=
  let (editor, outcome) := c.editor.press k
  let c := { c with editor := editor }
  match outcome with
  | .edited => { console := c, drawn := true }
  | .quit => { console := c, command := some .quit }
  | .submitted line => c.submit remembered line

def handle (c : Console) (remembered : Option String) : TerminalEvent → Change
  | .keyed k =>
    if k.kind = .press then
      match k.key? with
      | some key => c.press remembered key
      | none => { console := c }
    else { console := c }
  | .resize width height => { console := { c with width := width, height := height }, drawn := true }
  | .other => { console := c }

structure Reading where
  console : Console
  command : Option Command := none
  rest : List TerminalEvent := []
  drawn : List Console := []

def read (c : Console) (remembered : Option String) : List TerminalEvent → Reading
  | [] => { console := c }
  | e :: es =>
    let change := c.handle remembered e
    let frame := if change.drawn then [change.console] else []
    match change.command with
    | some command => ⟨change.console, some command, es, frame⟩
    | none =>
      let reading := change.console.read remembered es
      { reading with drawn := frame ++ reading.drawn }

def next (c : Console) (remembered : Option String) (es : List TerminalEvent) : Reading :=
  match c.queue.pop? with
  | some (command, queue) => ⟨{ c with queue := queue }, some command, es, []⟩
  | none => c.read remembered es

theorem observe_queue (c : Console) (d : Deed) : (c.observe d).console.queue = c.queue := by
  cases d <;> rfl

theorem submit_queue (c : Console) (remembered : Option String) (line : List Char) :
    (c.submit remembered line).console.queue = c.queue := by
  rw [submit]
  cases (TypedLine.read line remembered).complaint? <;> rfl

theorem press_queue (c : Console) (remembered : Option String) (k : Key) :
    (c.press remembered k).console.queue = c.queue := by
  rw [press]
  generalize c.editor.press k = pressed
  obtain ⟨editor, outcome⟩ := pressed
  cases outcome with
  | edited | quit => rfl
  | submitted line => exact submit_queue { c with editor := editor } remembered line

theorem handle_queue (c : Console) (remembered : Option String) (e : TerminalEvent) :
    (c.handle remembered e).console.queue = c.queue := by
  cases e with
  | resize | other => rfl
  | keyed k =>
      rw [handle]
      split
      · split
        · exact press_queue c remembered _
        · rfl
      · rfl

theorem read_queue (c : Console) (remembered : Option String) (es : List TerminalEvent) :
    (c.read remembered es).console.queue = c.queue := by
  induction es generalizing c with
  | nil => rfl
  | cons e es ih =>
      simp only [read]
      split
      · exact handle_queue c remembered e
      · exact (ih _).trans (handle_queue c remembered e)

theorem read_shorter (c : Console) (remembered : Option String) (es : List TerminalEvent) (command : Command)
    (given : (c.read remembered es).command = some command) : (c.read remembered es).rest.length < es.length := by
  induction es generalizing c with
  | nil => cases given
  | cons e es ih =>
      simp only [read] at given ⊢
      split at given
      · simp
      · exact Nat.lt_succ_of_lt (ih _ given)

theorem next_shorter (c : Console) (remembered : Option String) (es : List TerminalEvent) (command : Command)
    (given : (c.next remembered es).command = some command) :
    (c.next remembered es).console.queue.length + (c.next remembered es).rest.length <
      c.queue.length + es.length := by
  rw [next] at given ⊢
  cases popped : c.queue.pop? with
  | some first =>
      have shorter := c.queue.pop_shorter first.2 first.1 popped
      simp only
      omega
  | none =>
      rw [popped] at given
      have shorter := read_shorter c remembered es command given
      simp only [read_queue]
      omega

def close (c : Console) : Console := { c with alternateScreen := false }

def shownRows (c : Console) : List (List Char) :=
  c.picture.rows.map fun r => ((r.flatMap (·.symbol)).reverse.dropWhile (· = ' ')).reverse

def inputRow (c : Console) : List Char := (c.shownRows[c.height - 3]?).getD []

def shownCursor (c : Console) : Nat × Nat :=
  (min c.picture.cursor.1 (c.width - 1), min c.picture.cursor.2 (c.height - 1))

end Console
end DarkDrop
