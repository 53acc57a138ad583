import DarkDrop.Proofs.Play.Display
import DarkDrop.Proofs.Play.Log

namespace DarkDrop
open Wire

-- A text from which a client learns nothing: it cannot be read, or is a
-- complaint of the server.
def Barren (text : String) : Prop :=
  (∃ e, ServerMessage.decode text = .error e) ∨ ∃ told, ServerMessage.decode text = .ok (.logicError told)

structure BadFrame where
  link : LinkId
  text : String
  barren : Barren text

namespace BadFrame

def input (f : BadFrame) : Input := .report ⟨f.link, .message f.text⟩

def note (f : BadFrame) : String :=
  match ServerMessage.decode f.text with
  | .error e => "Ignored a malformed server message (" ++ e.message ++ ")"
  | .ok (.logicError told) => told
  | .ok _ => ""

theorem heard (f : BadFrame) (c : Client) :
    c.hear (.ofNotice (Connection.noticeOfText f.text)) = (c, [.notify f.note, .render]) := by
  rcases f.barren with ⟨e, unread⟩ | ⟨told, complains⟩
  · simp [Connection.noticeOfText, unread, note, Signal.ofNotice, Client.hear]
  · simp [Connection.noticeOfText, complains, note, Signal.ofNotice, Client.hear, Client.onMessage]

end BadFrame

inductive Entry where
  | own (i : Input)
  | strewn (f : BadFrame)

namespace Entry

def input : Entry → Input
  | own i => i
  | strewn f => f.input

def own? : Entry → Option Input
  | own i => some i
  | strewn _ => none

end Entry

namespace Run

-- What a bad frame adds to the log. The current link, while it is not closing,
-- has it told to the user, over the screen that is shown already.
def echo (r : Run) (f : BadFrame) : List Deed :=
  .took f.input ::
    if r.connection.link? = some f.link ∧ r.connection.isClosing = false then
      .told f.note :: r.shown?.toList.map .shown
    else []

theorem unheard_frame (c : Connection) (f : BadFrame)
    (unheard : ¬ (c.link? = some f.link ∧ c.isClosing = false)) :
    c.hear ⟨f.link, .message f.text⟩ = ⟨c, [], []⟩ := by
  have silent : c.receive ⟨f.link, .message f.text⟩ = ⟨c, [], []⟩ := by
    by_cases current : c.link? = some f.link
    · have closing : c.isClosing = true := by simpa [current] using unheard
      simp [Connection.receive, current, closing]
    · exact c.receive_stale _ current
  rw [Connection.hear, silent]
  rfl

theorem told_frame (c : Connection) (f : BadFrame)
    (told : c.link? = some f.link ∧ c.isClosing = false) :
    c.hear ⟨f.link, .message f.text⟩ = ⟨c, [], [.ofNotice (Connection.noticeOfText f.text)]⟩ := by
  have one : c.receive ⟨f.link, .message f.text⟩ = ⟨c, [Connection.noticeOfText f.text], []⟩ := by
    simp [Connection.receive, told.1, told.2]
  have plain := (Connection.notice_plain (.message f.text) _ rfl).1
  rw [Connection.hear, one]
  simp [plain.symm]

theorem drain_told (r : Run) (text : String) :
    r.drain .never [.notify text, .render] = ((r.did (.told text)).did (.shown r.client), .going) := by
  rw [drain_step _ _ _ (by simp)]
  change drain .never (r.did (.told text)) [.render] = _
  rw [drain_step _ _ _ (by simp)]
  change drain .never ((r.did (.told text)).did (.shown r.client)) [] = _
  rw [drain]

theorem frame_taken (r : Run) (current : r.shown? = some r.client) (f : BadFrame) :
    r.take .never f.input = ({ r with log := r.log ++ r.echo f }, .going) := by
  have taken : r.take .never f.input = (r.did (.took f.input)).report .never ⟨f.link, .message f.text⟩ := rfl
  rw [taken, report]
  by_cases told : r.connection.link? = some f.link ∧ r.connection.isClosing = false
  · have heard : (r.did (.took f.input)).connection.hear ⟨f.link, .message f.text⟩ =
        ⟨r.connection, [], [.ofNotice (Connection.noticeOfText f.text)]⟩ := told_frame r.connection f told
    have answer : (r.did (.took f.input)).client.hear (.ofNotice (Connection.noticeOfText f.text)) =
        (r.client, [.notify f.note, .render]) := f.heard r.client
    rw [heard, hearAll]
    simp only [ask, List.map_nil, List.append_nil, answer, drain_told]
    rw [echo, if_pos told, current]
    simp [hearAll, did]
  · have heard : (r.did (.took f.input)).connection.hear ⟨f.link, .message f.text⟩ =
        ⟨r.connection, [], []⟩ := unheard_frame r.connection f told
    rw [heard, echo, if_neg told]
    simp [hearAll, ask, did]

def strewnLog (r : Run) : List Entry → List Deed
  | [] => []
  | .strewn f :: es => r.echo f ++ r.strewnLog es
  | .own i :: es => (r.take .never i).1.since r ++
      match r.take .never i with
      | (next, .going) => next.strewnLog es
      | _ => []

theorem echo_relogged (r : Run) (l : List Deed) (f : BadFrame)
    (same : shown? { r with log := l } = r.shown?) : echo { r with log := l } f = r.echo f := by
  rw [echo, same, echo]

theorem follow_strewn (r : Run) (l : List Deed) (es : List Entry) (current : r.shown? = some r.client)
    (shown : shown? { r with log := l } = some r.client) :
    follow .never { r with log := l } (es.map Entry.input) =
      ({ (r.follow .never (es.filterMap Entry.own?)).1 with log := l ++ r.strewnLog es },
        (r.follow .never (es.filterMap Entry.own?)).2) := by
  induction es generalizing r l with
  | nil => simp [follow, strewnLog]
  | cons entry es ih =>
      cases entry with
      | strewn f =>
          have goes := frame_taken { r with log := l } shown f
          rw [echo_relogged r l f (shown.trans current.symm)] at goes
          have still := (take_displayed { r with log := l } shown f.input).1
          rw [goes] at still
          rw [List.map_cons, strewnLog, ← List.append_assoc]
          exact (turns_going _ _ _ _ goes).2.trans (ih r (l ++ r.echo f) current still)
      | own i =>
          have goes := take_relogged r l i
          have after := (take_displayed r current i).1
          have still := (take_displayed { r with log := l } shown i).1
          rw [goes] at still
          have kept : (Entry.own i :: es).filterMap Entry.own? = i :: es.filterMap Entry.own? := rfl
          rw [List.map_cons, strewnLog, kept, ← List.append_assoc]
          cases taken : r.take .never i with
          | mk next progress =>
              rw [taken] at goes after still
              by_cases on : progress = .going
              · subst on
                rw [(turns_going r next i _ taken).2]
                exact (turns_going _ _ _ _ goes).2.trans (ih next _ after still)
              · rw [(turns_stopped r next i _ progress taken on).2]
                refine (turns_stopped _ _ _ _ _ goes on).2.trans ?_
                cases progress with
                | going => exact absurd rfl on
                | ended | failed => simp only [List.append_nil]

theorem strewn_orders (r : Run) (es : List Entry) :
    (r.strewnLog es).filterMap Deed.order? =
      (r.strewnLog ((es.filterMap Entry.own?).map .own)).filterMap Deed.order? := by
  induction es generalizing r with
  | nil => rfl
  | cons entry es ih =>
      cases entry with
      | strewn f =>
          have silent : (r.echo f).filterMap Deed.order? = [] := by
            rw [echo]
            split
            · cases r.shown? <;> rfl
            · rfl
          rw [strewnLog, List.filterMap_append, silent]
          exact ih r
      | own i =>
          have kept : ((Entry.own i :: es).filterMap Entry.own?).map Entry.own =
              .own i :: (es.filterMap Entry.own?).map .own := rfl
          rw [kept, strewnLog, strewnLog, List.filterMap_append, List.filterMap_append]
          cases r.take .never i with
          | mk next progress =>
              cases progress with
              | going => simp only [ih next]
              | ended | failed => rfl

structure Unharmed (r : Run) (es : List Entry) : Prop where
  result : (r.play .never (es.map Entry.input)).2 = (r.play .never (es.filterMap Entry.own?)).2
  client : (r.play .never (es.map Entry.input)).1.client =
    (r.play .never (es.filterMap Entry.own?)).1.client
  connection : (r.play .never (es.map Entry.input)).1.connection =
    (r.play .never (es.filterMap Entry.own?)).1.connection
  memory : (r.play .never (es.map Entry.input)).1.memory =
    (r.play .never (es.filterMap Entry.own?)).1.memory
  orders : (r.play .never (es.map Entry.input)).1.orders =
    (r.play .never (es.filterMap Entry.own?)).1.orders
  logs : ∃ first last, r.start .never = (first, .going) ∧
    (r.play .never (es.filterMap Entry.own?)).1.log =
      first.log ++ first.strewnLog ((es.filterMap Entry.own?).map .own) ++ last ∧
    (r.play .never (es.map Entry.input)).1.log = first.log ++ first.strewnLog es ++ last

theorem own_entries (is : List Input) :
    (is.map Entry.own).map Entry.input = is ∧ (is.map Entry.own).filterMap Entry.own? = is := by
  simp [List.filterMap_map, Function.comp_def, Entry.input, Entry.own?]

theorem played_relogged (r last : Run) (is js : List Input) (l : List Deed) (progress : Progress)
    (plain : (r.start .never).1.follow .never is = (last, progress))
    (other : (r.start .never).1.follow .never js = ({ last with log := l }, progress)) :
    ∃ more, (r.play .never is).1.log = last.log ++ more ∧
      r.play .never js = ({ (r.play .never is).1 with log := l ++ more }, (r.play .never is).2) := by
  rw [played, played, plain, other]
  cases progress with
  | going | ended => exact ⟨_, rfl, rfl⟩
  | failed reason => exact ⟨[], (List.append_nil _).symm, by simp⟩

theorem bad_frames_harmless (endpoint : Endpoint) (room memory : Option String) (es : List Entry) :
    (new endpoint room memory).Unharmed es := by
  generalize new endpoint room memory = r
  have current := start_shows r
  have strewn := follow_strewn _ _ es current current
  have plain := follow_strewn _ _ ((es.filterMap Entry.own?).map .own) current current
  rw [(own_entries _).1, (own_entries _).2] at plain
  cases followed : (r.start .never).1.follow .never (es.filterMap Entry.own?) with
  | mk last progress =>
      rw [followed] at strewn plain
      have early : last.log = (r.start .never).1.log ++
          (r.start .never).1.strewnLog ((es.filterMap Entry.own?).map .own) :=
        congrArg (fun out : Run × Progress => out.1.log) plain
      obtain ⟨more, log, same⟩ := played_relogged r last _ _ _ progress followed strewn
      rw [early] at log
      refine ⟨by rw [same], by rw [same], by rw [same], by rw [same], ?_,
        (r.start .never).1, more, started r, log, by rw [same]⟩
      rw [same, orders, orders, log]
      simp only [List.filterMap_append, strewn_orders _ es]

end Run
end DarkDrop
