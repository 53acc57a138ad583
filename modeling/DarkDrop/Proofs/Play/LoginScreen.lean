import DarkDrop.Proofs.Play.Logins

namespace DarkDrop
open Wire

namespace Run

def Abandoned (ts : List (Run × Input)) (link : LinkId) : Prop :=
  ∃ t ∈ ts, t.1.command? t.2 = some .abandonQuickJoin ∧ t.1.client.screen = .quickJoin ∧
    t.1.connection.link? = some link

theorem abandoned_snoc (ts : List (Run × Input)) (r : Run) (i : Input) (link : LinkId) :
    Abandoned (ts ++ [(r, i)]) link ↔ Abandoned ts link ∨
      r.command? i = some .abandonQuickJoin ∧ r.client.screen = .quickJoin ∧
        r.connection.link? = some link := by
  simp only [Abandoned, List.mem_append, List.mem_singleton]
  constructor
  · rintro ⟨t, earlier | rfl, gave⟩
    · exact .inl ⟨t, earlier, gave⟩
    · exact .inr gave
  · rintro (⟨t, earlier, gave⟩ | now)
    · exact ⟨t, .inl earlier, gave⟩
    · exact ⟨(r, i), .inr rfl, now⟩

theorem abandoned_still (ts : List (Run × Input)) (r : Run) (i : Input) (link : LinkId)
    (stays : r.command? i = some .abandonQuickJoin → r.client.screen ≠ .quickJoin) :
    Abandoned (ts ++ [(r, i)]) link ↔ Abandoned ts link := by
  rw [abandoned_snoc]
  exact ⟨fun gave => gave.resolve_right fun now => stays now.1 now.2.1, .inl⟩

theorem abandoned_other (ts : List (Run × Input)) (r : Run) (i : Input) (c : Command) (link : LinkId)
    (given : r.command? i = some c) (other : c ≠ .abandonQuickJoin) :
    Abandoned (ts ++ [(r, i)]) link ↔ Abandoned ts link := by
  refine abandoned_still ts r i link fun now => absurd ?_ other
  exact Option.some.inj (given.symm.trans now)

theorem abandoned_report (ts : List (Run × Input)) (r : Run) (x : Report) (link : LinkId) :
    Abandoned (ts ++ [(r, .report x)]) link ↔ Abandoned ts link :=
  abandoned_still ts r _ link fun now => by cases now

theorem fresh_unabandoned (ts : List (Run × Input)) (k : Connection) (aged : Aged ts k) :
    ¬ Abandoned ts k.next := by
  rintro ⟨t, member, _, _, current⟩
  exact Nat.lt_irrefl _ (current_older ts k aged t member k.next current)

-- What a link that is closing leaves behind: nothing, or the session of a user
-- who gave up quick join, or may still do so.
def Leaves (ts : List (Run × Input)) (c : Client) (link : LinkId) : Prop :=
  (c.session = {} ∧ c.game = {} ∧
    (link ∈ openings ts → ¬ Abandoned ts link ∧ c.screen ≠ .quickJoin)) ∨
  (c.session.userId ≠ "" ∧ link ∈ openings ts ∧ (c.screen = .login → Abandoned ts link))

-- An open link has led past the login screen. Quick join is given up once at
-- most, over a link that is no longer live from then on.
structure Kept (ts : List (Run × Input)) (c : Client) (k : Connection) : Prop where
  up : ∀ link user, k.phase = .open link user → link ∈ openings ts ∧ c.screen ≠ .login
  live : ∀ link user, k.live? = some (link, user) → ¬ Abandoned ts link
  joining : c.screen = .quickJoin → ∀ link, ¬ Abandoned ts link
  closing : ∀ link waiting, k.phase = .disconnecting link waiting → Leaves ts c link

variable (ts : List (Run × Input)) (r : Run) (i : Input) (c : Client) (k : Connection)

theorem opened_before (link : LinkId) (before : link ∈ openings ts) :
    link ∈ openings (ts ++ [(r, i)]) := by
  rw [openings_snoc]
  exact List.mem_append_left _ before

theorem move_up (linked : r.Linked) (kept : Kept ts r.client r.connection) (move : Move r i c k)
    (link : LinkId) (user : String) (phase : k.phase = .open link user) :
    link ∈ openings (ts ++ [(r, i)]) ∧ c.screen ≠ .login := by
  cases move with
  | opened other owner connecting =>
      cases phase
      have now := opened_opens r linked.sound link user connecting
      refine ⟨by simp [openings_snoc, now], ?_⟩
      change r.client.screen.after .loginSucceeded ≠ .login
      cases r.client.screen <;> simp [Screen.after]
  | heard other owner text live =>
      obtain ⟨opened, screen⟩ := kept.up link user phase
      exact ⟨opened_before ts r _ link opened, fun after => screen ((text_spares r.client text).login after)⟩
  | withdrawn _ given quick idle => simp [Connection.link?, phase] at idle
  | idled | unreached | troubled =>
      obtain ⟨opened, screen⟩ := kept.up link user phase
      exact ⟨opened_before ts r _ link opened, screen⟩
  | redirected | dialled | parted | abandoned | lost | redialled => cases phase

theorem move_live (aged : Aged ts r.connection) (kept : Kept ts r.client r.connection)
    (move : Move r i c k) (link : LinkId) (user : String) (live : k.live? = some (link, user)) :
    ¬ Abandoned (ts ++ [(r, i)]) link := by
  cases move with
  | idled _ cached unmoved stays =>
      rw [abandoned_still ts r i link stays]
      exact kept.live link user live
  | unreached _ typed e cached given named failed =>
      rw [abandoned_other ts r i _ link given (by simp)]
      exact kept.live link user live
  | dialled _ typed url given idle reached =>
      cases live
      rw [abandoned_other ts r i _ _ given (by simp)]
      exact fresh_unabandoned ts r.connection aged
  | withdrawn _ given quick idle =>
      rw [r.connection.live_link link user live] at idle
      cases idle
  | opened other owner connecting =>
      cases live
      rw [abandoned_report]
      exact kept.live link user (by simp [Connection.live?, connecting])
  | heard | troubled =>
      rw [abandoned_report]
      exact kept.live link user live
  | redialled other owner url closing reached =>
      cases live
      rw [abandoned_report]
      exact fresh_unabandoned ts r.connection aged
  | redirected | parted | abandoned | lost => cases live

theorem move_joining (kept : Kept ts r.client r.connection) (move : Move r i c k)
    (quick : c.screen = .quickJoin) (link : LinkId) : ¬ Abandoned (ts ++ [(r, i)]) link := by
  have before := kept.joining (move_quick r i c k move quick) link
  cases move with
  | idled _ cached unmoved stays => rwa [abandoned_still ts r i link stays]
  | unreached _ typed e cached given | redirected _ typed other given | dialled _ typed url given =>
      rwa [abandoned_other ts r i _ link given (by simp)]
  | parted _ other user given => rwa [abandoned_other ts r i _ link given (by simp)]
  | abandoned _ other given before current => simp [Client.move, before, Screen.after] at quick
  | withdrawn _ given before idle => simp [Client.move, before, Screen.after] at quick
  | opened | heard | troubled | lost | redialled => rwa [abandoned_report]

theorem current_leaves (aged : Aged ts r.connection) (fresh : Fresh r.client r.connection)
    (kept : Kept ts r.client r.connection) (link : LinkId) (current : r.connection.link? = some link) :
    Leaves ts r.client link := by
  cases phase : r.connection.phase with
  | idle | closed => simp [Connection.link?, phase] at current
  | connecting other user =>
      have same : other = link := by simpa [Connection.link?, phase] using current
      subst same
      obtain ⟨session, game⟩ := fresh.away (.inr (by simp [Connection.isConnecting, phase]))
      exact .inl ⟨session, game, fun opened =>
        absurd opened (connecting_unopened ts r.connection aged other user phase)⟩
  | «open» other user =>
      have same : other = link := by simpa [Connection.link?, phase] using current
      subst same
      obtain ⟨opened, screen⟩ := kept.up other user phase
      have named := fresh.named other user (by simp [Connection.live?, phase])
      rw [← fresh.online other user phase] at named
      exact .inr ⟨named, opened, fun login => absurd login screen⟩
  | disconnecting other waiting =>
      have same : other = link := by simpa [Connection.link?, phase] using current
      subst same
      exact kept.closing other waiting phase

theorem abandoned_leaves (link : LinkId) (leaves : Leaves ts r.client link)
    (given : r.command? i = some .abandonQuickJoin) (quick : r.client.screen = .quickJoin)
    (current : r.connection.link? = some link) :
    Leaves (ts ++ [(r, i)]) ({ r.client with pendingRoom := none }.move .quickJoinAbandoned) link := by
  have now : Abandoned (ts ++ [(r, i)]) link :=
    (abandoned_snoc ts r i link).mpr (.inr ⟨given, quick, current⟩)
  rw [Leaves, openings_still ts _ (command_unopened r i _ given)]
  rcases leaves with ⟨session, game, opened⟩ | ⟨named, opened, _⟩
  · exact .inl ⟨session, game, fun before => absurd quick (opened before).2⟩
  · exact .inr ⟨named, opened, fun _ => now⟩

theorem leaves_still (link : LinkId) (unopened : opening? (r, i) = none)
    (stays : r.command? i = some .abandonQuickJoin → r.client.screen ≠ .quickJoin) :
    Leaves (ts ++ [(r, i)]) c link ↔ Leaves ts c link := by
  rw [Leaves, Leaves, openings_still ts _ unopened, abandoned_still ts r i link stays]

theorem login_leaves (link : LinkId) (typed : String) (given : r.command? i = some (.login typed)) :
    Leaves (ts ++ [(r, i)]) c link ↔ Leaves ts c link :=
  leaves_still ts r i c link (command_unopened r i _ given) fun abandons => by
    rw [given] at abandons
    cases abandons

theorem move_closing (linked : r.Linked) (aged : Aged ts r.connection) (fresh : Fresh r.client r.connection)
    (kept : Kept ts r.client r.connection) (move : Move r i c k) (link : LinkId) (waiting : Option String)
    (closing : k.phase = .disconnecting link waiting) : Leaves (ts ++ [(r, i)]) c link := by
  cases move with
  | idled _ cached unmoved stays =>
      rw [leaves_still ts r i _ link (unmoved_unopened r linked.sound i unmoved) stays]
      exact kept.closing link waiting closing
  | unreached _ typed e cached given named failed =>
      rw [login_leaves ts r i _ link typed given]
      exact kept.closing link waiting closing
  | redirected _ typed other given outside current =>
      cases closing
      rw [login_leaves ts r i _ link typed given]
      exact current_leaves ts r aged fresh kept link current
  | parted _ other user given live =>
      cases closing
      refine .inl ⟨rfl, rfl, fun _ => ⟨?_, ?_⟩⟩
      · rw [abandoned_other ts r i _ link given (by simp)]
        exact kept.live link user live
      · change r.client.screen.after .disconnected ≠ .quickJoin
        cases r.client.screen <;> simp [Screen.after]
  | abandoned _ other given quick current =>
      cases closing
      have leaves := current_leaves ts r aged fresh kept link current
      exact abandoned_leaves ts r i link leaves given quick current
  | withdrawn _ given quick idle => simp [Connection.link?, closing] at idle
  | heard _ _ _ live | troubled _ _ _ _ live => simp [Connection.live?, closing] at live
  | dialled | opened | lost | redialled => cases closing

theorem move_kept (linked : r.Linked) (aged : Aged ts r.connection) (fresh : Fresh r.client r.connection)
    (kept : Kept ts r.client r.connection) (move : Move r i c k) : Kept (ts ++ [(r, i)]) c k :=
  ⟨move_up ts r i c k linked kept move, move_live ts r i c k aged kept move,
    move_joining ts r i c k kept move, move_closing ts r i c k linked aged fresh kept move⟩

theorem waiting_leaves (endpoint : Endpoint) (room memory : Option String) (is : List Input) (w : Run)
    (orderly : OpensFirst ((new endpoint room memory).handled is))
    (waits : (new endpoint room memory).waiting? is = some w) :
    Fresh w.client w.connection ∧ ∀ link, w.connection.link? = some link →
      Leaves ((new endpoint room memory).handled is) w.client link := by
  have everywhere := waiting_keeps
    (fun ts w => OpensFirst ts → Fresh w.client w.connection ∧ Kept ts w.client w.connection)
    endpoint room memory ?_ ?_ is w waits
  · obtain ⟨_, aged, holds⟩ := everywhere
    obtain ⟨fresh, kept⟩ := holds orderly
    exact ⟨fresh, current_leaves _ w aged fresh kept⟩
  · intro _
    refine ⟨start_fresh endpoint room memory, ?_⟩
    rw [start_connection]
    exact ⟨fun link user up => (by cases up), fun link user live => (by cases live),
      fun _ link given => (by obtain ⟨t, member, _⟩ := given; cases member),
      fun link waiting closing => (by cases closing)⟩
  · intro ts r i next linked aged earlier goes orderly
    obtain ⟨fresh, kept⟩ := earlier (opens_first_earlier ts _ orderly)
    have move := next_moves r next linked i goes
    exact ⟨move_fresh ts r i _ _ linked aged fresh orderly move,
      move_kept ts r i _ _ linked aged fresh kept move⟩

theorem login_screen_empty_iff (endpoint : Endpoint) (room memory : Option String) (is : List Input) (w : Run)
    (orderly : OpensFirst ((new endpoint room memory).handled is))
    (waits : (new endpoint room memory).waiting? is = some w) (screen : w.client.screen = .login) :
    (w.client.session = {} ∧ w.client.game = {}) ↔
      ∀ link, w.connection.link? = some link → link ∈ openings ((new endpoint room memory).handled is) →
        ¬ Abandoned ((new endpoint room memory).handled is) link := by
  obtain ⟨fresh, leaves⟩ := waiting_leaves endpoint room memory is w orderly waits
  constructor
  · rintro ⟨session, game⟩ link current opened
    rcases leaves link current with ⟨_, _, left⟩ | ⟨named, _⟩
    · exact (left opened).1
    · rw [session] at named
      exact absurd rfl named
  · intro stayed
    cases current : w.connection.link? with
    | none => exact fresh.away (.inl current)
    | some link =>
        rcases leaves link current with ⟨session, game, _⟩ | ⟨_, opened, gave⟩
        · exact ⟨session, game⟩
        · exact absurd (gave screen) (stayed link current opened)

def earlyChange : List Input := [.command (.login "bob"), .command .abandonQuickJoin]

theorem early_change_empty :
    ∃ w, (new {} (some "ZZ9PL") none).waiting? earlyChange = some w ∧
      OpensFirst ((new {} (some "ZZ9PL") none).handled earlyChange) ∧ w.client.screen = .login ∧
      w.connection.phase = .disconnecting 1 none ∧ w.client.session = {} ∧ w.client.game = {} := by
  have came : ((new {} (some "ZZ9PL") none).waiting? earlyChange).map
      (fun w => (w.client.screen, w.connection.phase)) = some (.login, .disconnecting 1 none) := by
    decide +kernel
  have unopened : openings ((new {} (some "ZZ9PL") none).handled earlyChange) = [] := by decide +kernel
  obtain ⟨w, waits, shown⟩ := Option.map_eq_some_iff.mp came
  have orderly := opens_first_of _ w earlyChange waits fun link text told => (by simp [earlyChange] at told)
  have screen : w.client.screen = .login := congrArg Prod.fst shown
  have iff := login_screen_empty_iff {} (some "ZZ9PL") none earlyChange w orderly waits screen
  obtain ⟨session, game⟩ := iff.mpr fun link _ opened => by simp [unopened] at opened
  exact ⟨w, waits, orderly, screen, congrArg Prod.snd shown, session, game⟩

def lateChange : List Input :=
  [.command (.login "bob"), .report ⟨1, .opened⟩, .command .abandonQuickJoin]

theorem late_change_keeps_user :
    ∃ w, (new {} (some "ZZ9PL") none).waiting? lateChange = some w ∧
      OpensFirst ((new {} (some "ZZ9PL") none).handled lateChange) ∧ w.client.screen = .login ∧
      w.client.session.userId = "bob" ∧ ¬ (w.client.session = {} ∧ w.client.game = {}) := by
  have came : ((new {} (some "ZZ9PL") none).waiting? lateChange).map
      (fun w => (w.client.screen, w.client.session.userId)) = some (.login, "bob") := by
    decide +kernel
  obtain ⟨w, waits, shown⟩ := Option.map_eq_some_iff.mp came
  have orderly := opens_first_of _ w lateChange waits fun link text told => (by simp [lateChange] at told)
  have user : w.client.session.userId = "bob" := congrArg Prod.snd shown
  refine ⟨w, waits, orderly, congrArg Prod.fst shown, user, ?_⟩
  rintro ⟨session, _⟩
  rw [session] at user
  exact absurd user (by decide)

end Run
end DarkDrop
