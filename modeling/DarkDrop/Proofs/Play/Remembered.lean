import DarkDrop.Proofs.Play.Display
import DarkDrop.Proofs.Play.QuickJoin

namespace DarkDrop
open Wire

def Effect.recalled (memory : Option String) : Effect → Option String
  | .cacheUser user => some user
  | .clearCachedUser => none
  | _ => memory

def memoryAfter (memory : Option String) (es : List Effect) : Option String :=
  es.foldl Effect.recalled memory

def offered (memory : Option String) : Option String := memory.filter (! ·.isEmpty)

theorem memory_after_append (memory : Option String) (es more : List Effect) :
    memoryAfter memory (es ++ more) = memoryAfter (memoryAfter memory es) more := List.foldl_append

namespace Client

-- The client is ahead of its front end by the effects that are still to be carried out.
def Recalls (c : Client) (memory : Option String) (es : List Effect) : Prop :=
  c.cachedUser = offered (memoryAfter memory es)

theorem connected_recalls (c : Client) (user : String) (memory : Option String) (named : user ≠ "") :
    (c.onConnected user).1.Recalls memory (c.onConnected user).2 := by
  have last : memoryAfter memory (c.onConnected user).2 = some user := by
    cases joins : c.roomToJoin <;> simp [onConnected, joins, memoryAfter, Effect.recalled]
  have kept : offered (some user) = some user := by simp [offered, named]
  rw [Recalls, last, kept]
  rfl

theorem message_recalls (c : Client) (m : ServerMessage) (memory : Option String) :
    memoryAfter memory (c.hear (.server m)).2 = memory ∧ (c.hear (.server m)).1.cachedUser = c.cachedUser := by
  refine ⟨?_, ?_⟩
  · cases told : (c.onMessage m).2 <;> simp [hear, told, memoryAfter, Effect.recalled]
  · cases m with
    | clientJoined | clientLeft =>
        simp only [hear, onMessage]
        split <;> rfl
    | _ => rfl

theorem hear_recalls (c : Client) (s : Signal) (memory : Option String) (es : List Effect)
    (recalls : c.Recalls memory es) (named : ∀ user, s = .connected user → user ≠ "") :
    (c.hear s).1.Recalls memory (es ++ (c.hear s).2) := by
  rw [Recalls, memory_after_append]
  rw [Recalls] at recalls
  cases s with
  | connected user => exact connected_recalls c user _ (named user rfl)
  | connectionFailed reason =>
      by_cases quick : c.screen = .quickJoin
      · simp [hear, quick, memoryAfter, Effect.recalled, offered]
      · simpa [hear, quick, memoryAfter, Effect.recalled] using recalls
  | server m =>
      obtain ⟨silent, same⟩ := message_recalls c m (memoryAfter memory es)
      rw [silent, same, recalls]
  | connecting | disconnected | undecodable | rejected => exact recalls

theorem hear_all_recalls (c : Client) (ss : List Signal) (memory : Option String) (es : List Effect)
    (recalls : c.Recalls memory es) (named : ∀ user, .connected user ∈ ss → user ≠ "") :
    (c.hearAll ss).1.Recalls memory (es ++ (c.hearAll ss).2) := by
  induction ss generalizing c es with
  | nil => simpa [hearAll] using recalls
  | cons s ss ih =>
      have now := hear_recalls c s memory es recalls fun user same => named user (by simp [same])
      rw [hearAll, ← List.append_assoc]
      exact ih (c.hear s).1 _ now fun user member => named user (by simp [member])

theorem command_recalls (c : Client) (cmd : Command) (memory : Option String)
    (recalls : c.Recalls memory []) : (c.command cmd).1.Recalls memory (c.command cmd).2 := by
  rw [command]
  split
  · cases cmd with
    | login user =>
        rw [execute]
        split <;> exact recalls
    | forgetCachedUser => rfl
    | createSession | joinSession | leaveSession | startGame | play | disconnect | abandonQuickJoin | quit =>
        exact recalls
  · exact recalls

theorem start_recalls (c : Client) (memory : Option String) (recalls : c.Recalls memory []) :
    c.start.1.Recalls memory c.start.2 := by
  rw [start]
  split <;> exact recalls

end Client

namespace Run

theorem performed_unopened (k : Connection) (e : Effect) (user : String) :
    .connected user ∉ (k.perform e).signals := by
  cases e with
  | connect other =>
      rcases k.notices_connect other with none | ⟨x, failed⟩
      · simp [Connection.perform, none]
      · simp [Connection.perform, failed, Signal.ofNotice]
  | joinSession room =>
      rw [Connection.perform]
      split <;> simp
  | _ => simp [Connection.perform]

theorem step_recalls (r : Run) (e : Effect) (es : List Effect) (recalls : r.client.Recalls r.memory (e :: es)) :
    (r.step e).1.client.Recalls (r.step e).1.memory (es ++ (r.step e).2) := by
  cases shown : e.deed? r.client with
  | some d =>
      have same : memoryAfter (r.did d).memory es = memoryAfter r.memory (e :: es) := by
        cases e <;> cases shown <;> rfl
      simp only [step, shown, List.append_nil]
      rw [Client.Recalls, same]
      exact recalls
  | none =>
      have silent : e.recalled r.memory = r.memory := by
        cases e <;> first | rfl | cases shown
      have before : r.client.Recalls r.memory es := by
        rw [Client.Recalls, memoryAfter, List.foldl_cons, silent] at recalls
        exact recalls
      simp only [step, shown]
      exact r.client.hear_all_recalls _ r.memory es before fun user told =>
        absurd told (performed_unopened r.connection e user)

theorem drain_recalls (r next : Run) (es : List Effect) (recalls : r.client.Recalls r.memory es)
    (drained : r.drain .never es = (next, .going)) : next.client.Recalls next.memory [] := by
  fun_induction steps r es with
  | case1 r =>
      rw [drain] at drained
      cases drained
      exact recalls
  | case2 r e es ih =>
      by_cases last : e = .quit
      · subst last
        rw [drain_quit] at drained
        cases drained
      · rw [drain_step r e es last] at drained
        exact ih (step_recalls r e es recalls) drained

theorem signals_recall (r next : Run) (ss : List Signal) (recalls : r.client.Recalls r.memory [])
    (named : ∀ user, .connected user ∈ ss → user ≠ "") (heard : r.hearAll .never ss = (next, .going)) :
    next.client.Recalls next.memory [] := by
  induction ss generalizing r with
  | nil =>
      cases heard
      exact recalls
  | cons s ss ih =>
      have now := r.client.hear_recalls s r.memory [] recalls fun user same => named user (by simp [same])
      rw [hearAll] at heard
      cases drained : drain .never { r with client := (r.client.hear s).1 } (r.client.hear s).2 with
      | mk middle progress =>
          rw [drained] at heard
          cases progress with
          | going =>
              have settled := drain_recalls _ middle _ now drained
              exact ih middle settled (fun user member => named user (by simp [member])) heard
          | ended | failed => cases heard

theorem move_named (r : Run) (i : Input) (c : Client) (k : Connection) (move : Move r i c k)
    (named : ∀ link user, r.connection.live? = some (link, user) → user ≠ "")
    (link : LinkId) (user : String) (live : k.live? = some (link, user)) : user ≠ "" := by
  cases move with
  | dialled _ typed url given idle reached =>
      cases live
      exact r.connection.endpoint.url_named _ url reached
  | redialled _ _ url closing reached =>
      cases live
      exact r.connection.endpoint.url_named _ url reached
  | opened _ _ connecting =>
      cases live
      exact named link user (by simp [Connection.live?, connecting])
  | idled | unreached | withdrawn | heard | troubled => exact named link user live
  | redirected | parted | abandoned | lost => cases live

theorem heard_named (r : Run) (linked : r.Linked) (x : Report)
    (named : ∀ link user, r.connection.live? = some (link, user) → user ≠ "") (user : String)
    (told : .connected user ∈ (r.connection.hear x).signals) : user ≠ "" := by
  have opened : .opened user ∈ (r.connection.receive x).notices := by
    simp only [Connection.hear, List.mem_append, List.mem_map] at told
    rcases told with ⟨notice, member, same⟩ | again
    · cases notice <;> cases same
      exact member
    · split at again <;> simp at again
  have move := r.connection.receive_moves linked.sound x
  generalize r.connection.receive x = o at move opened
  cases move with
  | opened link owner connecting =>
      obtain rfl : user = owner := by simpa using opened
      exact named link user (by simp [Connection.live?, connecting])
  | heard _ notice owner live plain =>
      obtain rfl : .opened user = notice := by simpa using opened
      exact absurd rfl ((Connection.notice_plain x.event _ plain).2 user)
  | sent _ _ _ _ asks => cases asks
  | ignored | lost | ended | redialled => simp at opened

theorem next_recalls (r next : Run) (linked : r.Linked) (i : Input)
    (named : ∀ link user, r.connection.live? = some (link, user) → user ≠ "")
    (recalls : r.client.Recalls r.memory []) (goes : r.next? i = some next) :
    next.client.Recalls next.memory [] := by
  have taken := next_taken r next i goes
  cases given : r.command? i with
  | some c =>
      have drained := command_drained r next i c given goes
      exact drain_recalls _ next _ (r.client.command_recalls c r.memory recalls) drained
  | none =>
      cases i with
      | command c => cases given
      | failure reason => cases congrArg Prod.snd taken
      | line text =>
          have run : (r.did (.took (.line text))).line .never text = (next, .going) := taken
          rcases idle_line (r.did (.took (.line text))) text given with quiet | ⟨complaint, told⟩
          · rw [quiet] at run
            cases run
            exact recalls
          · rw [told] at run
            cases run
            exact recalls
      | report x =>
          have run : (r.hearing x).hearAll .never (r.connection.hear x).signals = (next, .going) := taken
          exact signals_recall (r.hearing x) next _ recalls (heard_named r linked x named) run

theorem start_recalled (endpoint : Endpoint) (room memory : Option String) :
    ((new endpoint room memory).start .never).1.client.Recalls
      ((new endpoint room memory).start .never).1.memory [] := by
  have first : (new endpoint room memory).client.Recalls memory [] := rfl
  exact drain_recalls _ _ _ (Client.start_recalls _ memory first) (started (new endpoint room memory))

theorem waiting_recalls (endpoint : Endpoint) (room memory : Option String) (is : List Input) (w : Run)
    (waits : (new endpoint room memory).waiting? is = some w) :
    w.client.cachedUser = offered w.memory := by
  have everywhere := waiting_keeps
    (fun _ w => (∀ link user, w.connection.live? = some (link, user) → user ≠ "") ∧
      w.client.Recalls w.memory []) endpoint room memory ?_ ?_ is w waits
  · exact everywhere.2.2.2
  · refine ⟨fun link user live => ?_, start_recalled endpoint room memory⟩
    rw [start_connection] at live
    cases live
  · rintro ts r i next linked aged ⟨named, recalls⟩ goes
    exact ⟨move_named r i _ _ (next_moves r next linked i goes) named,
      next_recalls r next linked i named recalls goes⟩

def offerLine (user : String) : String := "Join as " ++ user ++ "? (/yes)"

theorem offer_injective (user other : String) (same : offerLine user = offerLine other) : user = other := by
  simpa [offerLine] using same

theorem offer_unlike (user s : String) (differs : s.toList.take 8 ≠ "Join as ".toList) : offerLine user ≠ s := by
  rintro rfl
  refine differs ?_
  rw [offerLine, starts_with _ _ _ (by decide)]
  decide

theorem offer_shown (c : Client) (base : Url) (quick : c.screen = .quickJoin) (offline : c.link = .offline)
    (user : String) : offerLine user ∈ (Page.ofClient c base).body ↔ c.cachedUser = some user := by
  simp only [Page.ofClient, Page.bodyOf, quick, Page.quickJoinBody, offline, List.mem_cons,
    List.not_mem_nil, or_false]
  constructor
  · rintro (room | line)
    · split at room
      · refine absurd room (offer_unlike user _ ?_)
        rw [starts_with _ _ _ (by decide)]
        decide
      · exact absurd room (offer_unlike user _ (by decide))
    · cases remembered : c.cachedUser with
      | none =>
          rw [remembered] at line
          exact absurd line (offer_unlike user "Enter a user id to join with." (by decide))
      | some other =>
          rw [remembered] at line
          rw [offer_injective user other line]
  · intro remembered
    rw [remembered]
    exact Or.inr rfl

theorem yes_read (memory : Option String) : TypedLine.read "/yes".toList memory = TypedLine.yes memory := by
  rfl

theorem yes_answers (memory : Option String) (user : String) :
    offered memory = some user ↔
      TypedLine.read "/yes".toList memory = .command (.login user) ∧ user ≠ "" := by
  rw [yes_read, offered]
  cases memory with
  | none => simp [TypedLine.yes]
  | some remembered => simp [TypedLine.yes]

-- The client and its front end remember the same user, and the page makes no
-- other offer than the one that its answer takes up.
structure OneUser (w : Run) : Prop where
  same : w.client.cachedUser = w.memory.filter (! ·.isEmpty)
  offer : w.client.screen = .quickJoin → w.client.link = .offline → ∀ base, ∃ page,
    (w.pages base).getLast? = some page ∧ ∀ user, offerLine user ∈ page.body ↔
      TypedLine.read "/yes".toList w.memory = .command (.login user) ∧ user ≠ ""

theorem one_user_remembered (endpoint : Endpoint) (room memory : Option String) (is : List Input) (w : Run)
    (waits : (new endpoint room memory).waiting? is = some w) : w.OneUser := by
  have same := waiting_recalls endpoint room memory is w waits
  refine ⟨same, fun quick offline base => ?_⟩
  refine ⟨_, last_page w (waiting_shows _ w is waits) base, fun user => ?_⟩
  rw [offer_shown w.client base quick offline user, same]
  exact yes_answers w.memory user

theorem bob_follows_eve :
    ∃ w, (new {} (some "ZZ9PL") (some "eve")).waiting?
        [.command (.login "bob"), .report ⟨1, .opened⟩, .report ⟨1, .closed⟩] = some w ∧
      w.client.cachedUser = some "bob" ∧
      ∀ base, ∃ page, (w.pages base).getLast? = some page ∧ offerLine "bob" ∈ page.body ∧
        offerLine "eve" ∉ page.body := by
  have came : ((new {} (some "ZZ9PL") (some "eve")).waiting?
      [.command (.login "bob"), .report ⟨1, .opened⟩, .report ⟨1, .closed⟩]).map
      (fun w => (w.client.screen, w.client.link, w.memory)) = some (.quickJoin, .offline, some "bob") := by
    decide +kernel
  obtain ⟨w, waits, shown⟩ := Option.map_eq_some_iff.mp came
  obtain ⟨quick, offline, memory⟩ : w.client.screen = .quickJoin ∧ w.client.link = .offline ∧
      w.memory = some "bob" := by
    simpa only [Prod.mk.injEq] using shown
  have one := one_user_remembered {} (some "ZZ9PL") (some "eve") _ w waits
  refine ⟨w, waits, by simp [one.same, memory], fun base => ?_⟩
  obtain ⟨page, last, offers⟩ := one.offer quick offline base
  refine ⟨page, last, (offers "bob").mpr ?_, fun eve => ?_⟩
  · rw [memory, yes_read]
    exact ⟨rfl, by decide⟩
  · have answered := ((offers "eve").mp eve).1
    rw [memory] at answered
    exact absurd answered (by decide +kernel)

end Run
end DarkDrop
