import DarkDrop.Proofs.Play.Ending
import DarkDrop.Proofs.Play.OnlineAs

namespace DarkDrop
open Wire

def Effect.call? : Effect → Option Call
  | .connect user => some (.connect user)
  | .disconnect => some .disconnect
  | .createSession => some (.send .createSession)
  | .joinSession room => some (.join room)
  | .leaveSession => some (.send .leaveSession)
  | .requestSession => some (.send .sessionRequest)
  | .startGame => some (.send .startGame)
  | .play column => some (.send (.play column))
  | .render | .quit | .notify _ | .cacheUser _ | .clearCachedUser => none

namespace Connection

theorem perform_calls (c : Connection) (e : Effect) (call : Call) (called : e.call? = some call) :
    (c.perform e).connection = (c.call call).connection ∧ (c.perform e).orders = (c.call call).orders := by
  cases e with
  | connect | disconnect =>
      cases called
      exact ⟨rfl, rfl⟩
  | createSession | leaveSession | requestSession | startGame | play =>
      cases called
      exact ⟨(Run.send_kept c _).symm, rfl⟩
  | joinSession room =>
      cases called
      rw [perform, Connection.call]
      cases c.joinSession room <;> exact ⟨rfl, rfl⟩
  | render | quit | notify | cacheUser | clearCachedUser => cases called

theorem perform_uncalled (c : Connection) (e : Effect) (uncalled : e.call? = none) :
    c.perform e = ⟨c, [], []⟩ := by
  cases e with
  | render | quit | notify | cacheUser | clearCachedUser => rfl
  | _ => cases uncalled

def Settled (c : Connection) : Prop :=
  c.phase = .idle ∨ c.phase = .closed ∨ ∃ link, c.phase = .disconnecting link none

theorem disconnect_settles (c : Connection) : c.disconnect.connection.Settled := by
  rw [disconnect]
  cases phase : c.phase with
  | idle => exact .inl phase
  | closed => exact .inr (.inl phase)
  | connecting link | «open» link | disconnecting link => exact .inr (.inr ⟨link, rfl⟩)

theorem disconnect_keeps (c : Connection) :
    c.disconnect.connection.link? = c.link? ∧ c.disconnect.connection.next = c.next := by
  rw [disconnect, link?, link?]
  cases phase : c.phase <;> simp [phase]

theorem settled_closing (c : Connection) (settled : c.Settled) (link : LinkId)
    (current : c.link? = some link) : c.phase = .disconnecting link none := by
  rcases settled with phase | phase | ⟨other, closing⟩
  · simp [link?, phase] at current
  · simp [link?, phase] at current
  · rw [closing_link c other none closing] at current
    rw [closing, Option.some.inj current]

-- All that can still come to a settled connection is the end of its last link.
theorem settled_hears (c : Connection) (settled : c.Settled) (x : Report) :
    c.link? = some x.link ∧ x.event = .closed ∧ c.hear x = ⟨c.gone, [], [.disconnected]⟩ ∨
      ¬ (c.link? = some x.link ∧ x.event = .closed) ∧ c.hear x = ⟨c, [], []⟩ := by
  obtain ⟨link, event⟩ := x
  by_cases current : c.link? = some link
  · have closing := settled_closing c settled link current
    by_cases ends : event = .closed
    · refine .inl ⟨current, ends, ?_⟩
      simp [hear, receive, current, ends, onClosed, closing, gone, isConnecting, Signal.ofNotice]
    · refine .inr ⟨fun both => ends both.2, ?_⟩
      simp [hear, receive, current, isClosing, closing, ends]
  · refine .inr ⟨fun both => current both.1, ?_⟩
    simp [hear, receive_stale c ⟨link, event⟩ current]

def hearAll (c : Connection) : List Report → Exchange
  | [] => ⟨c, [], []⟩
  | x :: xs =>
    let now := c.hear x
    let later := now.connection.hearAll xs
    ⟨later.connection, now.orders ++ later.orders, now.signals ++ later.signals⟩

theorem gone_hears_all (c : Connection) (xs : List Report) : c.gone.hearAll xs = ⟨c.gone, [], []⟩ := by
  induction xs with
  | nil => rfl
  | cons x xs ih =>
      rcases settled_hears c.gone (.inr (.inl rfl)) x with ⟨current, _⟩ | ⟨_, heard⟩
      · cases current
      · rw [hearAll, heard, ih]
        rfl

structure Silent (c : Connection) (xs : List Report) : Prop where
  orders : (c.hearAll xs).orders = []
  parted : ∀ link, c.link? = some link → ⟨link, .closed⟩ ∈ xs → (c.hearAll xs).signals = [.disconnected]
  silent : (∀ link, c.link? = some link → ⟨link, .closed⟩ ∉ xs) → (c.hearAll xs).signals = []

theorem settled_silent (c : Connection) (settled : c.Settled) (xs : List Report) : Silent c xs := by
  induction xs with
  | nil => exact ⟨rfl, by simp, fun _ => rfl⟩
  | cons x xs ih =>
      rcases settled_hears c settled x with ⟨current, ends, heard⟩ | ⟨other, heard⟩
      · have same : c.hearAll (x :: xs) = ⟨c.gone, [], [.disconnected]⟩ := by
          rw [hearAll, heard, gone_hears_all]
          rfl
        have member : ⟨x.link, .closed⟩ ∈ x :: xs := by
          rw [← ends]
          exact List.mem_cons_self
        exact ⟨by rw [same], fun _ _ _ => by rw [same], fun absent => absurd member (absent x.link current)⟩
      · have same : c.hearAll (x :: xs) = c.hearAll xs := by
          rw [hearAll, heard]
          rfl
        have apart : ∀ link, c.link? = some link → x ≠ ⟨link, .closed⟩ := by
          rintro link current rfl
          exact other ⟨current, rfl⟩
        refine ⟨by rw [same, ih.orders], fun link current member => ?_, fun absent => ?_⟩
        · rw [same]
          exact ih.parted link current (List.mem_of_ne_of_mem (apart link current).symm member)
        · rw [same]
          exact ih.silent fun link current member => absent link current (List.mem_cons_of_mem x member)

end Connection

namespace Run

def Called (endpoint : Endpoint) (r : Run) : Prop :=
  ∃ calls, r.connection = (Connection.new endpoint).after calls ∧
    r.orders = (Connection.new endpoint).orders calls

theorem called_next (endpoint : Endpoint) (r next : Run) (call : Call) (called : Called endpoint r)
    (connection : next.connection = (r.connection.call call).connection)
    (orders : next.orders = r.orders ++ (r.connection.call call).orders) : Called endpoint next := by
  obtain ⟨calls, same, asked⟩ := called
  refine ⟨calls ++ [call], ?_, ?_⟩
  · rw [connection, same, Connection.after_snoc]
  · rw [orders, same, asked, Connection.orders_snoc]

theorem called_did (endpoint : Endpoint) (r : Run) (d : Deed) (unasked : d.order? = none)
    (called : Called endpoint r) : Called endpoint (r.did d) := by
  obtain ⟨calls, connection, orders⟩ := called
  refine ⟨calls, connection, ?_⟩
  rw [did_orders, unasked, Option.toList_none, List.append_nil, orders]

theorem step_connection (r : Run) (e : Effect) :
    (r.step e).1.connection = (r.connection.perform e).connection := by
  cases shown : e.deed? r.client with
  | some d => cases e <;> cases shown <;> rfl
  | none => simp only [step, shown, perform]

theorem called_kept (endpoint : Endpoint) : Lasting (Called endpoint) where
  client _ _ called := called
  complained r text called := called_did endpoint r (.complained text) rfl called
  step r e called := by
    have connection := step_connection r e
    have orders := step_orders r e
    rw [asked] at orders
    cases calls : e.call? with
    | some call =>
        obtain ⟨after, asks⟩ := r.connection.perform_calls e call calls
        exact called_next endpoint r _ call called (connection.trans after) (by rw [orders, asks])
    | none =>
        rw [r.connection.perform_uncalled e calls] at connection orders
        obtain ⟨earlier, same, asked⟩ := called
        exact ⟨earlier, connection.trans same, orders.trans ((List.append_nil _).trans asked)⟩
  heard r x called :=
    called_next endpoint _ _ (.receive x) called rfl
      (ask_orders (r.did (.took (.report x))) (r.connection.hear x).orders)

theorem called_leave (endpoint : Endpoint) (r : Run) (called : Called endpoint r) :
    Called endpoint r.leave :=
  called_next endpoint r _ .disconnect called rfl (ask_orders r r.connection.disconnect.orders)

theorem waiting_called (endpoint : Endpoint) (room memory : Option String) (is : List Input) (w : Run)
    (waits : (new endpoint room memory).waiting? is = some w) : Called endpoint w := by
  refine waiting_holds (fun _ w => Called endpoint w) (new endpoint room memory) ?_ ?_ is w waits
  · exact drain_kept _ (called_kept endpoint) _ _ ⟨[], rfl, rfl⟩
  · intro ts r i next called goes
    have taken := take_kept _ (called_kept endpoint) r i (called_did endpoint r (.took i) rfl called)
    rw [next_taken r next i goes] at taken
    exact taken

def EndHeard (ts : List (Run × Input)) (link : LinkId) : Prop :=
  ∃ t ∈ ts, t.2 = .report ⟨link, .closed⟩ ∧ t.1.connection.link? = some link

-- The first time that a link reports its end, it is the current one.
theorem waiting_ended (endpoint : Endpoint) (room memory : Option String) (is : List Input) (w : Run)
    (waits : (new endpoint room memory).waiting? is = some w) :
    ∀ link, 0 < link → link < w.connection.next → w.connection.link? ≠ some link →
      EndHeard ((new endpoint room memory).handled is) link := by
  have everywhere := waiting_keeps
    (fun ts w => Ended ts w.connection ∧ ∀ link, .closed ∈ reportsOf ts link → EndHeard ts link)
    endpoint room memory ?_ ?_ is w waits
  · obtain ⟨_, _, ended, heard⟩ := everywhere
    exact fun link positive older gone => heard link (ended link positive older gone)
  · rw [start_connection]
    refine ⟨fun link positive older => ?_, fun link told => by cases told⟩
    exact absurd positive (Nat.not_lt.mpr (Nat.le_of_lt_succ older))
  · rintro ts r i next linked aged ⟨ended, heard⟩ goes
    refine ⟨move_ended ts r i _ _ linked aged ended (next_moves r next linked i goes), fun link told => ?_⟩
    have before : .closed ∈ reportsOf ts link → EndHeard (ts ++ [(r, i)]) link := by
      intro earlier
      obtain ⟨t, member, rest⟩ := heard link earlier
      exact ⟨t, List.mem_append_left _ member, rest⟩
    rw [reports_snoc, List.mem_append] at told
    rcases told with earlier | now
    · exact before earlier
    · have own : reportOf link (r, i) = some .closed := by simpa using now
      obtain ⟨report, positive, older⟩ := report_given (r, i) link .closed own
      by_cases current : r.connection.link? = some link
      · exact ⟨(r, i), by simp, report, current⟩
      · exact before (ended link positive older current)

structure LinksLeft (ts : List (Run × Input)) (last : Run) : Prop where
  settled : last.connection.Settled
  once : ∀ link, last.orders.count (.close link) ≤ 1
  finished : ∀ link ∈ Connection.openedLinks last.orders,
    last.orders.count (.close link) = 1 ∨ EndHeard ts link
  newest : ∀ link, last.connection.link? = some link →
    (Connection.openedLinks last.orders).getLast? = some link
  silent : ∀ xs, last.connection.Silent xs

theorem links_left (endpoint : Endpoint) (room memory : Option String) (is : List Input) (w : Run)
    (waits : (new endpoint room memory).waiting? is = some w) (r : Run) (called : Called endpoint r)
    (same : r.connection = w.connection) (ts : List (Run × Input))
    (handled : ∀ t ∈ (new endpoint room memory).handled is, t ∈ ts) : LinksLeft ts r.leave := by
  have fresh := Connection.new_sound endpoint
  have settled : r.leave.connection.Settled := r.connection.disconnect_settles
  obtain ⟨current, next⟩ : r.leave.connection.link? = r.connection.link? ∧
    r.leave.connection.next = r.connection.next := r.connection.disconnect_keeps
  obtain ⟨calls, connection, orders⟩ := called_leave endpoint r called
  have sound := Connection.after_sound _ fresh calls
  rw [← connection] at sound
  obtain ⟨opened, count, links, counted⟩ := Connection.openings_counted endpoint calls
  rw [← connection] at count counted
  rw [← orders] at links
  have once : ∀ link, r.leave.orders.count (.close link) ≤ 1 := by
    intro link
    rw [orders]
    exact Connection.close_at_most_once _ fresh link calls
  refine ⟨settled, once, fun link member => ?_, fun link held => ?_, fun xs => ?_⟩
  · rw [links, List.mem_range'_1] at member
    by_cases held : r.leave.connection.link? = some link
    · refine .inl (Nat.le_antisymm (once link) (List.count_pos_iff.mpr ?_))
      have closing := Connection.settled_closing _ settled link held
      rw [connection] at closing
      rw [orders]
      exact Connection.entered_asked _ fresh rfl link none calls closing
    · have older : link < w.connection.next := by
        rw [← same, ← next, count]
        exact member.2
      rw [current, same] at held
      obtain ⟨t, heard, ends⟩ := waiting_ended endpoint room memory is w waits link member.1 older held
      exact .inr ⟨t, handled t heard, ends⟩
  · have next : link + 1 = opened + 1 := (sound.newest link held).trans (count.trans (Nat.add_comm 1 opened))
    rw [Connection.lives_current _ link held] at counted
    rw [links, Nat.succ.inj next, List.getLast?_range', if_neg (by omega), Nat.add_sub_cancel_left]
  · exact r.leave.connection.settled_silent settled xs

structure CleanEnd (endpoint : Endpoint) (room memory : Option String) (is : List Input) (last : Run) :
    Prop where
  ended : (∃ w, (new endpoint room memory).waiting? is = some w ∧ last = w.leave ∧ last.inputs = is) ∨
    ∃ before quit after w, is = before ++ quit :: after ∧ (new endpoint room memory).waiting? before = some w ∧
      w.command? quit = some .quit ∧ last = (w.did (.took quit)).leave ∧ last.inputs = before ++ [quit]
  quits : ∀ before quit after w, is = before ++ quit :: after →
    (new endpoint room memory).waiting? before = some w → w.command? quit = some .quit →
    last = (w.did (.took quit)).leave ∧ last.inputs = before ++ [quit]
  links : LinksLeft ((new endpoint room memory).handled is) last

theorem leave_inputs (r : Run) : r.leave.inputs = r.inputs := ask_inputs r _

theorem quit_played (r w : Run) (before after : List Input) (quit : Input) (waits : r.waiting? before = some w)
    (given : w.command? quit = some .quit) :
    r.play .never (before ++ quit :: after) = ((w.did (.took quit)).leave, none) := by
  rw [waiting_started] at waits
  rw [played, follow_append _ w before _ waits,
    (turns_stopped w _ quit after _ (quit_taken w quit given) nofun).2]

theorem quit_inputs (r w : Run) (before : List Input) (quit : Input) (fresh : r.inputs = [])
    (waits : r.waiting? before = some w) : (w.did (.took quit)).leave.inputs = before ++ [quit] := by
  rw [leave_inputs, did_inputs, waiting_inputs r w before fresh waits]
  rfl

theorem clean_end (endpoint : Endpoint) (room memory : Option String) (refusal : Refusal) (is : List Input)
    (last : Run) (ends : (new endpoint room memory).play refusal is = (last, none)) :
    CleanEnd endpoint room memory is last := by
  have plain := play_unrefused refusal _ is last ends
  have quits : ∀ before quit after w, is = before ++ quit :: after →
      (new endpoint room memory).waiting? before = some w → w.command? quit = some .quit →
      last = (w.did (.took quit)).leave ∧ last.inputs = before ++ [quit] := by
    rintro before quit after w rfl waits given
    rw [quit_played _ w before after quit waits given] at plain
    cases plain
    exact ⟨rfl, quit_inputs _ w before quit rfl waits⟩
  rw [played] at plain
  cases followed : ((new endpoint room memory).start .never).1.follow .never is with
  | mk r progress =>
      rw [followed] at plain
      have well : ∀ reason, progress ≠ .failed reason := by
        rintro reason rfl
        cases congrArg Prod.snd plain
      have left : r.leave = last := by
        cases progress with
        | failed reason => exact absurd rfl (well reason)
        | going | ended => exact congrArg Prod.fst plain
      subst left
      cases follow_ends _ r is progress followed well with
      | out _ waits =>
          rw [← waiting_started] at waits
          refine ⟨.inl ⟨r, waits, rfl, ?_⟩, quits, ?_⟩
          · rw [leave_inputs, waiting_inputs _ r is rfl waits]
          · exact links_left endpoint room memory is r waits r
              (waiting_called endpoint room memory is r waits) rfl _ fun t member => member
      | quit before after i w split waits given =>
          rw [← waiting_started] at waits
          refine ⟨.inr ⟨before, i, after, w, split, waits, given, rfl, ?_⟩, quits, ?_⟩
          · exact quit_inputs _ w before i rfl waits
          · have called := waiting_called endpoint room memory before w waits
            refine links_left endpoint room memory before w waits _ (called_did endpoint w _ rfl called) rfl _ ?_
            intro t member
            rw [waiting_started] at waits
            rw [handled_turns] at member ⊢
            rw [split, turns_append _ w before _ waits]
            exact List.mem_append_left _ member

def quitWaiting : List Input :=
  [.command (.login "alice"), .report ⟨1, .opened⟩, .command .disconnect, .command (.login "bob"),
    .line "/quit", .report ⟨1, .closed⟩]

theorem quit_waiting_clean :
    ((new {} none none).waiting? (quitWaiting.take 4)).map (·.connection.phase) =
        some (.disconnecting 1 (some "bob")) ∧
      ∃ last, (new {} none none).play ({ renders := some 9 } : Budget).refusal quitWaiting = (last, none) ∧
        last.connection.phase = .disconnecting 1 none ∧ CleanEnd {} none none quitWaiting last := by
  refine ⟨by decide +kernel, ?_⟩
  have came : ((new {} none none).play ({ renders := some 9 } : Budget).refusal quitWaiting).2 = none ∧
      ((new {} none none).play ({ renders := some 9 } : Budget).refusal quitWaiting).1.connection.phase =
        .disconnecting 1 none := by
    decide +kernel
  have ends : (new {} none none).play ({ renders := some 9 } : Budget).refusal quitWaiting =
      (((new {} none none).play ({ renders := some 9 } : Budget).refusal quitWaiting).1, none) :=
    Prod.ext rfl came.1
  exact ⟨_, ends, came.2, clean_end {} none none _ quitWaiting _ ends⟩

end Run
end DarkDrop
