import DarkDrop.Proofs.Terminal.Zipper
import DarkDrop.Terminal.Console

namespace DarkDrop

-- What the front end is called for. A call for the next command is given up if this many events bring none.
inductive FrontCall where
  | next (events : Nat)
  | observe (d : Deed)

namespace FrontCall

def deed? : FrontCall → Option Deed
  | next _ => none
  | observe d => some d

def asks : FrontCall → Bool
  | next events => 0 < events
  | observe _ => false

end FrontCall

inductive Happening where
  | event (e : TerminalEvent)
  | deed (d : Deed)

namespace TypedLine

def asks? : TypedLine → Option Command
  | command c => some c
  | empty | unknown _ | invalid .. => none

def notice? : TypedLine → Option String
  | unknown input => some ("Unknown command: " ++ input)
  | invalid name error => some ("/" ++ name ++ ": " ++ error)
  | command _ | empty => none

theorem command_asks (t : TypedLine) : t.command? = t.asks? := by cases t <;> rfl

theorem complaint_notice (t : TypedLine) : t.complaint? = t.notice? := by cases t <;> rfl

end TypedLine

def KeyOutcome.command? (remembered : Option String) : KeyOutcome → Option Command
  | edited => none
  | submitted line => (TypedLine.read line remembered).asks?
  | quit => some .quit

def KeyOutcome.complaint? (remembered : Option String) : KeyOutcome → Option String
  | submitted line => (TypedLine.read line remembered).notice?
  | edited | quit => none

def Deed.message? : Deed → Option String
  | told text => some text
  | _ => none

namespace Zipper

theorem press_all_append (z : Zipper) (ks more : List Key) :
    z.pressAll (ks ++ more) =
      (((z.pressAll ks).1.pressAll more).1, (z.pressAll ks).2 ++ ((z.pressAll ks).1.pressAll more).2) := by
  induction ks generalizing z with
  | nil => rfl
  | cons k ks ih => simp only [List.cons_append, pressAll, ih]

end Zipper

-- The key that an event counts as. One that is held or let go of is none.
def TerminalEvent.pressed? : TerminalEvent → Option Key
  | keyed ⟨some (.char letter), control, .press⟩ => if letter = 'c' ∧ control then some .esc else some (.char letter)
  | keyed ⟨code, _, .press⟩ => code
  | _ => none

def Zipper.heed (z : Zipper) (e : TerminalEvent) : Zipper := e.pressed?.elim z fun k => (z.press k).1

def Zipper.outcome? (z : Zipper) (e : TerminalEvent) : Option KeyOutcome := e.pressed?.map fun k => (z.press k).2

namespace TerminalEvent

def line (es : List TerminalEvent) : Zipper := Zipper.after (es.filterMap pressed?)

def typed (remembered : Option String) (es : List TerminalEvent) : List Command :=
  (Zipper.pressAll {} (es.filterMap pressed?)).2.filterMap (KeyOutcome.command? remembered)

theorem line_snoc (es : List TerminalEvent) (e : TerminalEvent) : line (es ++ [e]) = (line es).heed e := by
  rw [line, Zipper.after, List.filterMap_append, Zipper.press_all_append, Zipper.heed]
  cases pressed : e.pressed? with
  | none => simp [pressed, Zipper.pressAll, line, Zipper.after]
  | some k => simp [pressed, Zipper.pressAll, line, Zipper.after]

theorem typed_snoc (remembered : Option String) (es : List TerminalEvent) (e : TerminalEvent) :
    typed remembered (es ++ [e]) =
      typed remembered es ++ (((line es).outcome? e).bind (KeyOutcome.command? remembered)).toList := by
  rw [typed, List.filterMap_append, Zipper.press_all_append, List.filterMap_append, Zipper.outcome?]
  cases pressed : e.pressed? with
  | none => simp [pressed, Zipper.pressAll, typed]
  | some k =>
      simp only [pressed, Zipper.pressAll, typed, line, Zipper.after, List.filterMap_cons, List.filterMap_nil,
        Option.map_some, Option.bind_some]
      cases ((Zipper.pressAll {} (es.filterMap pressed?)).1.press k).2.command? remembered <;> rfl

end TerminalEvent

namespace Happening

def event? : Happening → Option TerminalEvent
  | event e => some e
  | deed _ => none

def deed? : Happening → Option Deed
  | event _ => none
  | deed d => some d

def events (past : List Happening) : List TerminalEvent := past.filterMap event?

def heed (z : Zipper) : Happening → Zipper
  | event e => z.heed e
  | deed _ => z

def message? (remembered : Option String) (z : Zipper) : Happening → Option String
  | event e => (z.outcome? e).bind (KeyOutcome.complaint? remembered)
  | deed d => d.message?

def messages (remembered : Option String) (z : Zipper) : List Happening → List String
  | [] => []
  | h :: past => (h.message? remembered z).toList ++ messages remembered (heed z h) past

theorem messages_snoc (remembered : Option String) (z : Zipper) (past : List Happening) (h : Happening) :
    messages remembered z (past ++ [h]) =
      messages remembered z past ++ (h.message? remembered (past.foldl heed z)).toList := by
  induction past generalizing z with
  | nil => simp [messages]
  | cons g past ih => rw [List.cons_append, messages, ih, messages, List.append_assoc, List.foldl_cons]

theorem events_snoc (past : List Happening) (e : TerminalEvent) :
    events (past ++ [event e]) = events past ++ [e] := List.filterMap_append

theorem events_deed (past : List Happening) (d : Deed) : events (past ++ [deed d]) = events past := by
  simp [events, event?]

theorem events_all (past : List Happening) (es : List TerminalEvent) :
    events (past ++ es.map event) = events past ++ es := by
  rw [events, List.filterMap_append, List.filterMap_map]
  exact congrArg _ List.filterMap_some

theorem deeds_all (past : List Happening) (es : List TerminalEvent) :
    (past ++ es.map event).filterMap deed? = past.filterMap deed? := by
  rw [List.filterMap_append, List.filterMap_map]
  simp [Function.comp_def, deed?]

theorem heed_line (past : List Happening) : past.foldl heed {} = TerminalEvent.line (events past) := by
  induction past using List.reverseRecOn with
  | nil => rfl
  | append_singleton past h ih =>
      rw [List.foldl_append, ih, List.foldl_cons, List.foldl_nil]
      cases h with
      | event e => rw [events_snoc, TerminalEvent.line_snoc, heed]
      | deed d => rw [events_deed, heed]

end Happening

namespace CommandQueue

def waiting (q : CommandQueue) : List Command := q.commands.reverse

theorem waiting_push (q : CommandQueue) (c : Command) : (q.push c).waiting = q.waiting ++ [c] := List.reverse_cons

theorem waiting_pop (q : CommandQueue) :
    q.pop? = none ∧ q.waiting = [] ∨ ∃ c rest, q.pop? = some (c, rest) ∧ q.waiting = c :: rest.waiting := by
  obtain ⟨commands⟩ := q
  induction commands using List.reverseRecOn with
  | nil => exact .inl ⟨rfl, rfl⟩
  | append_singleton commands c _ =>
      refine .inr ⟨c, ⟨commands⟩, ?_, ?_⟩
      · simp [pop?]
      · simp [waiting]

end CommandQueue

namespace Console

theorem next_queued (c : Console) (remembered : Option String) (es : List TerminalEvent) (command : Command)
    (rest : CommandQueue) (popped : c.queue.pop? = some (command, rest)) :
    c.next remembered es = ⟨{ c with queue := rest }, some command, es, []⟩ := by
  rw [next, popped]

theorem next_idle (c : Console) (remembered : Option String) (es : List TerminalEvent)
    (idle : c.queue.pop? = none) : c.next remembered es = c.read remembered es := by
  rw [next, idle]

theorem enqueue_all (c : Console) (queued : List Command) :
    (queued.foldl enqueue c).queue.waiting = c.queue.waiting ++ queued ∧
      (queued.foldl enqueue c).editor = c.editor ∧ (queued.foldl enqueue c).notices = c.notices := by
  induction queued generalizing c with
  | nil => exact ⟨(List.append_nil _).symm, rfl, rfl⟩
  | cons command queued ih =>
      obtain ⟨waiting, editor, notices⟩ := ih (c.enqueue command)
      refine ⟨?_, editor, notices⟩
      rw [List.foldl_cons, waiting, enqueue, CommandQueue.waiting_push, List.append_assoc, List.singleton_append]

section

variable (remembered : Option String) (earlier : List String) (past : List Happening)

structure Recalls (c : Console) : Prop where
  line : c.editor = (TerminalEvent.line (Happening.events past)).editor
  notices : c.notices = ((Happening.messages remembered {} past).reverse ++ earlier).take noticeLimit

variable {remembered earlier past} (c : Console) (recalls : Recalls remembered earlier past c)
include recalls

theorem take_notice (text : Option String) :
    ((text.map c.pushNotice).getD c).notices =
      ((Happening.messages remembered {} past ++ text.toList).reverse ++ earlier).take noticeLimit := by
  cases text with
  | none => simpa using recalls.notices
  | some text =>
      have shorter : noticeLimit = 15 + 1 := rfl
      simp [pushNotice, recalls.notices, shorter, List.take_take]

theorem observe_recalls (d : Deed) :
    Recalls remembered earlier (past ++ [.deed d]) (c.observe d).console := by
  have told := take_notice c recalls d.message?
  have kept : (c.observe d).console.editor = c.editor := by cases d <;> rfl
  have notices : (c.observe d).console.notices = ((d.message?.map c.pushNotice).getD c).notices := by
    cases d <;> rfl
  apply Recalls.mk
  · rw [kept, Happening.events_deed]
    exact recalls.line
  · rw [notices, told, Happening.messages_snoc]
    rfl

end

theorem press_edited (c : Console) (remembered : Option String) (k : Key) (e : LineEditor)
    (pressed : c.editor.press k = (e, .edited)) :
    c.press remembered k = { console := { c with editor := e }, drawn := true } := by
  rw [press, pressed]

theorem press_quit (c : Console) (remembered : Option String) (k : Key) (e : LineEditor)
    (pressed : c.editor.press k = (e, .quit)) :
    c.press remembered k = { console := { c with editor := e }, command := some .quit } := by
  rw [press, pressed]

theorem press_submitted (c : Console) (remembered : Option String) (k : Key) (e : LineEditor) (line : List Char)
    (pressed : c.editor.press k = (e, .submitted line)) :
    c.press remembered k = { c with editor := e }.submit remembered line := by
  rw [press, pressed]

structure Heeds (remembered : Option String) (outcome : Option KeyOutcome) (line : LineEditor) (c : Console)
    (change : Change) : Prop where
  line : change.console.editor = line
  notices : change.console.notices =
    (((outcome.bind (KeyOutcome.complaint? remembered)).map c.pushNotice).getD c).notices
  command : change.command = outcome.bind (KeyOutcome.command? remembered)

theorem submit_heeds (c : Console) (remembered : Option String) (e : LineEditor) (line : List Char) :
    Heeds remembered (some (.submitted line)) e c ({ c with editor := e }.submit remembered line) := by
  rw [submit, TypedLine.complaint_notice, TypedLine.command_asks]
  cases notice : (TypedLine.read line remembered).notice? with
  | none => exact ⟨rfl, by simp [KeyOutcome.complaint?, notice], rfl⟩
  | some text => exact ⟨rfl, by simp [KeyOutcome.complaint?, notice, pushNotice], rfl⟩

theorem press_heeds (c : Console) (remembered : Option String) (z : Zipper) (same : c.editor = z.editor) (k : Key) :
    Heeds remembered (some (z.press k).2) (z.press k).1.editor c (c.press remembered k) := by
  have pressed : c.editor.press k = ((z.press k).1.editor, (z.press k).2) := by
    rw [same, LineEditor.press, LineEditor.press_zipper]
    rfl
  cases outcome : (z.press k).2 with
  | edited =>
      rw [press_edited c remembered k _ (by rw [pressed, outcome])]
      exact ⟨rfl, rfl, rfl⟩
  | quit =>
      rw [press_quit c remembered k _ (by rw [pressed, outcome])]
      exact ⟨rfl, rfl, rfl⟩
  | submitted line =>
      rw [press_submitted c remembered k _ line (by rw [pressed, outcome])]
      exact submit_heeds c remembered _ line

theorem pressed_keyed (k : KeyEvent) :
    (TerminalEvent.keyed k).pressed? = if k.kind = .press then k.key? else none := by
  obtain ⟨code, control, kind⟩ := k
  cases kind with
  | repeated | release => cases code with
    | none => rfl
    | some key => cases key <;> rfl
  | press => cases code with
    | none => rfl
    | some key => cases key with
      | char letter =>
          by_cases leaves : letter = 'c'
          · subst leaves
            cases control <;> rfl
          · simp [TerminalEvent.pressed?, KeyEvent.key?, leaves]
      | _ => rfl

theorem handle_pressed (c : Console) (remembered : Option String) (e : TerminalEvent) (k : Key)
    (pressed : e.pressed? = some k) : c.handle remembered e = c.press remembered k := by
  cases e with
  | resize | other => cases pressed
  | keyed event =>
      rw [pressed_keyed] at pressed
      split at pressed
      · rename_i now
        rw [handle, if_pos now, pressed]
      · cases pressed

theorem handle_unpressed (c : Console) (remembered : Option String) (e : TerminalEvent)
    (unpressed : e.pressed? = none) : Heeds remembered none c.editor c (c.handle remembered e) := by
  cases e with
  | resize | other => exact ⟨rfl, rfl, rfl⟩
  | keyed event =>
      have idle : c.handle remembered (.keyed event) = { console := c } := by
        rw [pressed_keyed] at unpressed
        rw [handle]
        split at unpressed
        · rename_i now
          rw [if_pos now, unpressed]
        · rename_i other
          rw [if_neg other]
      rw [idle]
      exact ⟨rfl, rfl, rfl⟩

theorem handle_heeds (c : Console) (remembered : Option String) (z : Zipper) (same : c.editor = z.editor)
    (e : TerminalEvent) : Heeds remembered (z.outcome? e) (z.heed e).editor c (c.handle remembered e) := by
  rw [Zipper.outcome?, Zipper.heed]
  cases pressed : e.pressed? with
  | none =>
      have heeds := handle_unpressed c remembered e pressed
      rwa [same] at heeds
  | some k =>
      rw [handle_pressed c remembered e k pressed]
      exact press_heeds c remembered z same k

section

variable (remembered : Option String) (earlier : List String) (past : List Happening)

theorem handle_recalls (c : Console) (recalls : Recalls remembered earlier past c) (e : TerminalEvent) :
    Recalls remembered earlier (past ++ [.event e]) (c.handle remembered e).console := by
  have heeds := handle_heeds c remembered _ recalls.line e
  apply Recalls.mk
  · rw [heeds.line, Happening.events_snoc, TerminalEvent.line_snoc]
  · rw [heeds.notices, take_notice c recalls, Happening.messages_snoc, Happening.heed_line]
    rfl

structure Reads (c : Console) (es : List TerminalEvent) (reading : Reading) (taken : List TerminalEvent) : Prop where
  parts : es = taken ++ reading.rest
  recalls : Recalls remembered earlier (past ++ taken.map .event) reading.console
  typed : TerminalEvent.typed remembered (Happening.events past ++ taken) =
    TerminalEvent.typed remembered (Happening.events past) ++ reading.command.toList
  advances : es ≠ [] → taken ≠ []

theorem read_takes (c : Console) (recalls : Recalls remembered earlier past c) (es : List TerminalEvent) :
    ∃ taken, Reads remembered earlier past c es (c.read remembered es) taken := by
  induction es generalizing c past with
  | nil =>
      have start : past ++ ([] : List TerminalEvent).map .event = past := List.append_nil past
      exact ⟨[], rfl, by rwa [start], by simp [read], fun left => left⟩
  | cons e es ih =>
      have heeds := handle_heeds c remembered _ recalls.line e
      have after := handle_recalls remembered earlier past c recalls e
      have gives := TerminalEvent.typed_snoc remembered (Happening.events past) e
      rw [← heeds.command] at gives
      cases ended : (c.handle remembered e).command with
      | some command =>
          rw [ended] at gives
          have reading : c.read remembered (e :: es) = ⟨(c.handle remembered e).console, some command, es,
              if (c.handle remembered e).drawn then [(c.handle remembered e).console] else []⟩ := by
            rw [read, ended]
          rw [reading]
          exact ⟨[e], rfl, after, gives, fun _ => List.cons_ne_nil e []⟩
      | none =>
          rw [ended, Option.toList_none, List.append_nil] at gives
          obtain ⟨taken, reads⟩ := ih (past ++ [.event e]) _ after
          have seen := reads.typed
          rw [Happening.events_snoc, gives, List.append_assoc] at seen
          have recalled := reads.recalls
          rw [List.append_assoc] at recalled
          simp only [read, ended]
          exact ⟨e :: taken, congrArg (e :: ·) reads.parts, recalled, seen, fun _ => List.cons_ne_nil e taken⟩

end
end Console

structure Desk where
  console : Console
  ahead : List TerminalEvent
  returned : List Command := []
  past : List Happening := []

namespace Desk

def call (remembered : Option String) (d : Desk) : FrontCall → Desk
  | .next events =>
    let arrived := d.ahead.take events
    let reading := d.console.next remembered arrived
    { console := reading.console
      ahead := reading.rest ++ d.ahead.drop events
      returned := d.returned ++ reading.command.toList
      past := d.past ++ (arrived.take (arrived.length - reading.rest.length)).map .event }
  | .observe deed => { d with console := (d.console.observe deed).console, past := d.past ++ [.deed deed] }

def run (remembered : Option String) (d : Desk) (calls : List FrontCall) : Desk :=
  calls.foldl (call remembered) d

def left (d : Desk) : Nat := d.console.queue.waiting.length + d.ahead.length

section

variable (remembered : Option String) (d : Desk)

theorem call_queued (command : Command) (rest : CommandQueue) (popped : d.console.queue.pop? = some (command, rest))
    (n : Nat) : d.call remembered (.next n) =
      { d with console := { d.console with queue := rest }, returned := d.returned ++ [command] } := by
  simp [call, Console.next_queued d.console remembered _ command rest popped]

theorem call_idle (idle : d.console.queue.pop? = none) (n : Nat) (taken : List TerminalEvent)
    (parts : d.ahead.take n = taken ++ (d.console.read remembered (d.ahead.take n)).rest) :
    d.call remembered (.next n) =
      { console := (d.console.read remembered (d.ahead.take n)).console
        ahead := (d.console.read remembered (d.ahead.take n)).rest ++ d.ahead.drop n
        returned := d.returned ++ (d.console.read remembered (d.ahead.take n)).command.toList
        past := d.past ++ taken.map .event } := by
  have front : (d.ahead.take n).take
      ((d.ahead.take n).length - (d.console.read remembered (d.ahead.take n)).rest.length) = taken := by
    generalize (d.console.read remembered (d.ahead.take n)).rest = rest at parts
    rw [parts, List.length_append, Nat.add_sub_cancel, List.take_left]
  rw [call, Console.next_idle d.console remembered _ idle, front]

end

section

variable (remembered : Option String) (earlier : List String) (queued : List Command) (events : List TerminalEvent)

structure Keeps (d : Desk) : Prop where
  recalls : Console.Recalls remembered earlier d.past d.console
  events : Happening.events d.past ++ d.ahead = events
  commands : d.returned ++ d.console.queue.waiting =
    queued ++ TerminalEvent.typed remembered (Happening.events d.past)
  ordered : d.console.queue.waiting ≠ [] → Happening.events d.past = []

variable {remembered earlier queued events} (d : Desk) (keeps : Keeps remembered earlier queued events d)
include keeps

theorem observe_keeps (deed : Deed) : Keeps remembered earlier queued events (d.call remembered (.observe deed)) := by
  have queue := d.console.observe_queue deed
  have past := Happening.events_deed d.past deed
  exact
    { recalls := Console.observe_recalls d.console keeps.recalls deed
      events := by
        rw [call, past]
        exact keeps.events
      commands := by
        rw [call, past, queue]
        exact keeps.commands
      ordered := by
        rw [call, past, queue]
        exact keeps.ordered }

theorem queued_keeps (command : Command) (rest : CommandQueue) (popped : d.console.queue.pop? = some (command, rest))
    (waiting : d.console.queue.waiting = command :: rest.waiting) (n : Nat) :
    Keeps remembered earlier queued events (d.call remembered (.next n)) := by
  rw [call_queued remembered d command rest popped n]
  have commands := keeps.commands
  rw [waiting, ← List.singleton_append, ← List.append_assoc] at commands
  have untouched := keeps.ordered (by rw [waiting]; exact List.cons_ne_nil command _)
  exact ⟨⟨keeps.recalls.line, keeps.recalls.notices⟩, keeps.events, commands, fun _ => untouched⟩

theorem idle_keeps (idle : d.console.queue.pop? = none) (none : d.console.queue.waiting = []) (n : Nat) :
    Keeps remembered earlier queued events (d.call remembered (.next n)) := by
  obtain ⟨taken, reads⟩ := Console.read_takes remembered earlier d.past d.console keeps.recalls (d.ahead.take n)
  rw [call_idle remembered d idle n taken reads.parts]
  have queue := d.console.read_queue remembered (d.ahead.take n)
  apply Keeps.mk
  · exact reads.recalls
  · rw [Happening.events_all, List.append_assoc, ← List.append_assoc taken, ← reads.parts, List.take_append_drop]
    exact keeps.events
  · have commands := keeps.commands
    rw [none, List.append_nil] at commands
    rw [Happening.events_all, reads.typed, queue, none, commands, List.append_nil, List.append_assoc]
  · intro waiting
    rw [queue] at waiting
    exact absurd none waiting

theorem call_keeps (c : FrontCall) : Keeps remembered earlier queued events (d.call remembered c) := by
  cases c with
  | observe deed => exact observe_keeps d keeps deed
  | next n =>
      rcases d.console.queue.waiting_pop with ⟨idle, none⟩ | ⟨command, rest, popped, waiting⟩
      · exact idle_keeps d keeps idle none n
      · exact queued_keeps d keeps command rest popped waiting n

theorem run_keeps (calls : List FrontCall) : Keeps remembered earlier queued events (d.run remembered calls) := by
  induction calls generalizing d with
  | nil => exact keeps
  | cons c calls ih => exact ih (d.call remembered c) (call_keeps d keeps c)

theorem idle_left (idle : d.console.queue.pop? = none) (none : d.console.queue.waiting = []) (n : Nat) :
    (d.call remembered (.next n)).left ≤ d.left - (FrontCall.next n).asks.toNat := by
  obtain ⟨taken, reads⟩ := Console.read_takes remembered earlier d.past d.console keeps.recalls (d.ahead.take n)
  have parts := congrArg List.length reads.parts
  have whole := congrArg List.length (List.take_append_drop n d.ahead)
  rw [List.length_append] at parts whole
  rw [call_idle remembered d idle n taken reads.parts, left, left, Console.read_queue, none, List.length_append,
    List.length_nil]
  generalize (d.console.read remembered (d.ahead.take n)).rest.length = rest at parts ⊢
  by_cases waits : 0 < n
  · have one := (FrontCall.next n).asks.toNat_le
    by_cases passed : d.ahead = []
    · have none := congrArg List.length passed
      rw [List.length_nil] at none
      omega
    · have taken := List.length_pos_iff.mpr (reads.advances (by simp [passed, Nat.ne_of_gt waits]))
      omega
  · simp only [FrontCall.asks, decide_eq_false waits, Bool.toNat_false]
    omega

theorem call_left (c : FrontCall) : (d.call remembered c).left ≤ d.left - c.asks.toNat := by
  cases c with
  | observe deed => simp [call, left, Console.observe_queue, FrontCall.asks]
  | next n =>
      rcases d.console.queue.waiting_pop with ⟨idle, none⟩ | ⟨command, rest, popped, waiting⟩
      · exact idle_left d keeps idle none n
      · have one := (FrontCall.next n).asks.toNat_le
        have total : d.left = rest.waiting.length + 1 + d.ahead.length := by rw [left, waiting, List.length_cons]
        have after : (d.call remembered (.next n)).left = rest.waiting.length + d.ahead.length := by
          rw [call_queued remembered d command rest popped n]
          rfl
        omega

theorem run_left (calls : List FrontCall) :
    (d.run remembered calls).left ≤ d.left - calls.countP FrontCall.asks := by
  induction calls generalizing d with
  | nil => exact Nat.le_refl d.left
  | cons c calls ih =>
      have first := call_left d keeps c
      have rest := ih (d.call remembered c) (call_keeps d keeps c)
      rw [List.countP_cons]
      cases asking : c.asks with
      | false =>
          rw [asking, Bool.toNat_false] at first
          exact Nat.le_trans rest (Nat.sub_le_sub_right first _)
      | true =>
          rw [asking, Bool.toNat_true] at first
          change (Desk.run remembered (d.call remembered c) calls).left ≤ _
          simp only [if_true]
          omega

end

theorem call_deeds (remembered : Option String) (d : Desk) (c : FrontCall) :
    (d.call remembered c).past.filterMap Happening.deed? = d.past.filterMap Happening.deed? ++ c.deed?.toList := by
  cases c with
  | next n => rw [call, Happening.deeds_all, FrontCall.deed?, Option.toList_none, List.append_nil]
  | observe deed =>
      rw [call, List.filterMap_append]
      rfl

theorem run_deeds (remembered : Option String) (d : Desk) (calls : List FrontCall) :
    (d.run remembered calls).past.filterMap Happening.deed? =
      d.past.filterMap Happening.deed? ++ calls.filterMap FrontCall.deed? := by
  induction calls generalizing d with
  | nil => exact (List.append_nil _).symm
  | cons c calls ih =>
      change (Desk.run remembered (d.call remembered c) calls).past.filterMap Happening.deed? = _
      rw [ih, call_deeds, List.append_assoc, List.filterMap_cons]
      cases c.deed? <;> rfl

end Desk

structure Answers (remembered : Option String) (waiting : List Command) (earlier : List String)
    (events : List TerminalEvent) (calls : List FrontCall) (d : Desk) : Prop where
  taken : Happening.events d.past ++ d.ahead = events
  deeds : d.past.filterMap Happening.deed? = calls.filterMap FrontCall.deed?
  edited : LineEditor.run? {} ((Happening.events d.past).filterMap TerminalEvent.pressed?) =
    some (d.console.editor, (Zipper.pressAll {} ((Happening.events d.past).filterMap TerminalEvent.pressed?)).2)
  commands : d.returned ++ d.console.queue.waiting =
    waiting ++ TerminalEvent.typed remembered (Happening.events d.past)
  ordered : d.console.queue.waiting ≠ [] → Happening.events d.past = []
  notices : d.console.notices = ((Happening.messages remembered {} d.past).reverse ++ earlier).take 16
  drained : waiting.length + events.length ≤ calls.countP FrontCall.asks →
    d.ahead = [] ∧ d.returned = waiting ++ TerminalEvent.typed remembered events

namespace Console

theorem keystrokes_kept (remembered : Option String) (c : Console) (earlier : List String)
    (fresh : c.editor = {}) (noticed : c.notices = earlier.take 16) (queued : List Command)
    (events : List TerminalEvent) (calls : List FrontCall) :
    Answers remembered (c.queue.waiting ++ queued) earlier events calls
      (Desk.run remembered { console := queued.foldl enqueue c, ahead := events } calls) := by
  obtain ⟨waiting, editor, notices⟩ := enqueue_all c queued
  have start : Desk.Keeps remembered earlier (c.queue.waiting ++ queued) events
      { console := queued.foldl enqueue c, ahead := events } :=
    { recalls := ⟨editor.trans fresh, notices.trans noticed⟩
      events := rfl
      commands := waiting.trans (List.append_nil _).symm
      ordered := fun _ => rfl }
  have keeps := Desk.run_keeps _ start calls
  have left := Desk.run_left _ start calls
  have line := keeps.recalls.line
  exact
    { taken := keeps.events
      deeds := Desk.run_deeds remembered _ calls
      edited := by
        rw [line]
        exact LineEditor.run_zipper {} _
      commands := keeps.commands
      ordered := keeps.ordered
      notices := keeps.recalls.notices
      drained := fun enough => by
        have total : Desk.left { console := queued.foldl enqueue c, ahead := events } =
            (c.queue.waiting ++ queued).length + events.length := by
          rw [Desk.left, waiting]
        have nothing := Nat.le_zero.mp (Nat.le_trans left (by omega))
        obtain ⟨queue, ahead⟩ := Nat.add_eq_zero_iff.mp nothing
        have passed := List.length_eq_zero_iff.mp ahead
        have all := keeps.events
        rw [passed, List.append_nil] at all
        have commands := keeps.commands
        rw [List.length_eq_zero_iff.mp queue, List.append_nil, all] at commands
        exact ⟨passed, commands⟩ }

theorem keystrokes_around_messages :
    let c : Console :=
      { width := 80, height := 24, linkBase := { scheme := "http".toList, host := none, path := .segments [[]] },
        notices := ["old"] }
    let queued : List Command := [.createSession, .startGame]
    let typing : List TerminalEvent := [.key (.char '/'), .key (.char 'z'), .key .enter, .key (.char '4'),
      .keyed { code := some (.char '4'), kind := .release }, .other, .key .enter, .control 'c']
    let calls : List FrontCall := [.next 0, .next 3, .next 2, .observe (.told "up"), .next 0, .next 2,
      .observe (.told "down"), .next 9, .next 9, .next 9, .next 9, .next 9, .next 9, .next 9]
    let d := Desk.run none { console := queued.foldl enqueue c, ahead := typing } calls
    c.editor = {} ∧ c.notices = ["old"].take 16 ∧
      Answers none (c.queue.waiting ++ queued) ["old"] typing calls d ∧
      d.returned = [.createSession, .startGame, .play 4, .quit] ∧
      d.console.notices = ["down", "Unknown command: /z", "up", "old"] := by
  intro c queued typing calls d
  have kept := keystrokes_kept none c ["old"] rfl rfl queued typing calls
  refine ⟨rfl, rfl, kept, ?_, by decide +kernel⟩
  have drained := kept.drained (by decide)
  rw [drained.2]
  decide +kernel

end Console
end DarkDrop
