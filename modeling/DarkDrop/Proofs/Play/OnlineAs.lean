import DarkDrop.Proofs.Play.LinkStatus
import DarkDrop.Proofs.Play.Logins
import DarkDrop.Proofs.Play.Display
import DarkDrop.Terminal.Picture

namespace DarkDrop
open Wire

namespace Run

def ClosesLast (ts : List (Run × Input)) : Prop :=
  ∀ link before after, reportsOf ts link = before ++ .closed :: after → after = []

theorem closes_last_earlier (ts : List (Run × Input)) (t : Run × Input)
    (orderly : ClosesLast (ts ++ [t])) : ClosesLast ts := by
  intro link before after split
  have later := orderly link before (after ++ (reportOf link t).toList)
    (by rw [reports_snoc, split, List.append_assoc, List.cons_append])
  exact (List.append_eq_nil_iff.mp later).1

theorem closes_last_of (r w : Run) (is : List Input) (waits : r.waiting? is = some w)
    (ends : ∀ link, .report ⟨link, .closed⟩ ∈ is → .closed ∉ (reportsOf (r.handled is) link).dropLast) :
    ClosesLast (r.handled is) := by
  intro link before after split
  have told : .closed ∈ reportsOf (r.handled is) link := by simp [split]
  obtain ⟨t, member, given, _⟩ := reports_mem _ link _ told
  have last := ends link (by
    rw [← handled_inputs r w is waits, ← given]
    exact List.mem_map_of_mem member)
  by_contra more
  refine last ?_
  rw [split, List.dropLast_append_of_ne_nil (by simp), List.dropLast_cons_of_ne_nil more]
  simp

theorem reports_earlier (ts : List (Run × Input)) (t : Run × Input) (link : LinkId) (event : LinkEvent)
    (told : event ∈ reportsOf ts link) : event ∈ reportsOf (ts ++ [t]) link := by
  rw [reports_snoc]
  exact List.mem_append_left _ told

-- Links come one after another: all but the current one have reported their end.
def Ended (ts : List (Run × Input)) (k : Connection) : Prop :=
  ∀ link, 0 < link → link < k.next → k.link? ≠ some link → .closed ∈ reportsOf ts link

def saidOpen? (t : Run × Input) : Option LinkId :=
  match t.2 with
  | .report x => if reportOf x.link t = some .opened then some x.link else none
  | _ => none

def lastOpened (ts : List (Run × Input)) : Option LinkId := (ts.filterMap saidOpen?).getLast?

theorem said_open (t : Run × Input) (link : LinkId) :
    saidOpen? t = some link ↔ reportOf link t = some .opened := by
  obtain ⟨r, i⟩ := t
  cases i with
  | report x =>
      by_cases own : x.link = link
      · subst own
        simp [saidOpen?]
      · have silent : reportOf link (r, .report x) = none := if_neg fun now => own now.1
        simp [saidOpen?, silent, own]
  | command | line | failure => simp [saidOpen?, reportOf]

theorem last_opened_snoc (ts : List (Run × Input)) (t : Run × Input) :
    lastOpened (ts ++ [t]) = (saidOpen? t).or (lastOpened ts) := by
  cases said : saidOpen? t <;> simp [lastOpened, said]

def userOf? (ts : List (Run × Input)) (link : LinkId) : Option String :=
  ts.findSome? fun t =>
    match t.1.connection.phase with
    | .connecting other user => if other = link then some user else none
    | _ => none

theorem user_still (ts : List (Run × Input)) (t : Run × Input) (link : LinkId) (user : String)
    (known : userOf? ts link = some user) : userOf? (ts ++ [t]) link = some user := by
  rw [userOf?] at known
  rw [userOf?, List.findSome?_append, known, Option.some_or]

def Parted (ts : List (Run × Input)) (link : LinkId) : Prop :=
  ∃ t ∈ ts, t.1.command? t.2 = some .disconnect ∧ t.1.client.accepts .disconnect = true ∧
    t.1.connection.link? = some link

theorem fresh_unparted (ts : List (Run × Input)) (k : Connection) (aged : Aged ts k) : ¬ Parted ts k.next := by
  rintro ⟨t, member, _, _, current⟩
  exact Nat.lt_irrefl _ (current_older ts k aged t member k.next current)

-- The last link that opened, which is still the current one: the client names the
-- user it was opened for, and nobody once that user has disconnected.
structure Names (ts : List (Run × Input)) (c : Client) (link : LinkId) (user : String) : Prop where
  latest : lastOpened ts = some link
  owner : userOf? ts link = some user
  named : user ≠ ""
  stays : ¬ Parted ts link → c.session.userId = user
  parts : Parted ts link → c.session.userId = ""

structure Attributed (ts : List (Run × Input)) (c : Client) (k : Connection) : Prop where
  live : ∀ link user, k.live? = some (link, user) → ¬ Parted ts link
  opened : ∀ link user, k.phase = .open link user → lastOpened ts = some link ∧ userOf? ts link = some user
  closing : ∀ link, k.phase = .disconnecting link none → c.link = .online → ∃ user, Names ts c link user

variable (ts : List (Run × Input)) (r : Run) (i : Input) (c : Client) (k : Connection)

theorem parted_snoc (link : LinkId) :
    Parted (ts ++ [(r, i)]) link ↔ Parted ts link ∨
      r.command? i = some .disconnect ∧ r.client.accepts .disconnect = true ∧
        r.connection.link? = some link := by
  simp only [Parted, List.mem_append, List.mem_singleton]
  constructor
  · rintro ⟨t, earlier | rfl, gave⟩
    · exact .inl ⟨t, earlier, gave⟩
    · exact .inr gave
  · rintro (⟨t, earlier, gave⟩ | now)
    · exact ⟨t, .inl earlier, gave⟩
    · exact ⟨(r, i), .inr rfl, now⟩

theorem parted_still (stays : r.command? i = some .disconnect → r.client.accepts .disconnect = false)
    (link : LinkId) : Parted (ts ++ [(r, i)]) link ↔ Parted ts link := by
  rw [parted_snoc]
  refine ⟨fun parted => parted.resolve_right ?_, .inl⟩
  rintro ⟨given, on, _⟩
  rw [stays given] at on
  cases on

theorem user_known (aged : Aged ts r.connection) (link : LinkId) (user : String)
    (connecting : r.connection.phase = .connecting link user) :
    userOf? (ts ++ [(r, i)]) link = some user := by
  cases known : userOf? ts link with
  | none =>
      rw [userOf?] at known
      simp [userOf?, List.findSome?_append, known, connecting]
  | some other =>
      rw [user_still ts _ link other known]
      obtain ⟨t, member, dialled⟩ := List.exists_of_findSome?_eq_some known
      split at dialled
      · rename_i last owner phase
        split at dialled
        · rename_i same
          subst same
          cases dialled
          have older := t.1.connection.current_old (aged.sound t member) last
            (by simp [Connection.link?, phase])
          have before := (aged.opening last user connecting t member older).1
          rw [phase] at before
          cases before
          rfl
        · cases dialled
      · cases dialled

theorem move_ended (linked : r.Linked) (aged : Aged ts r.connection) (ended : Ended ts r.connection)
    (move : Move r i c k) : Ended (ts ++ [(r, i)]) k := by
  have before : ∀ link, 0 < link → link < r.connection.next → r.connection.link? ≠ some link →
      .closed ∈ reportsOf (ts ++ [(r, i)]) link :=
    fun link positive older gone => reports_earlier ts _ link _ (ended link positive older gone)
  have closed : ∀ last, i = .report ⟨last, .closed⟩ → r.connection.link? = some last →
      ∀ link, 0 < link → link < r.connection.next → .closed ∈ reportsOf (ts ++ [(r, i)]) link := by
    rintro last rfl current link positive older
    by_cases same : last = link
    · subst same
      rw [reports_snoc, report_own ts r linked aged last .closed current]
      simp
    · exact before link positive older (by rw [current]; simpa using same)
  have kept : ∀ last, r.connection.link? = some last → ∀ link, 0 < link → link < r.connection.next →
      some last ≠ some link → .closed ∈ reportsOf (ts ++ [(r, i)]) link :=
    fun last current link positive older gone => before link positive older (by rwa [current])
  have older_link : ∀ link, link < r.connection.next + 1 → some r.connection.next ≠ some link →
      link < r.connection.next :=
    fun link older new => Nat.lt_of_le_of_ne (Nat.le_of_lt_succ older) fun same => new (by rw [same])
  cases move with
  | idled | unreached | withdrawn | heard | troubled => exact before
  | opened link user connecting => exact kept link (by simp [Connection.link?, connecting])
  | redirected _ typed link given outside current => exact kept link current
  | parted _ link user given live => exact kept link (r.connection.live_link link user live)
  | abandoned _ link given quick current => exact kept link current
  | dialled _ typed url given idle reached =>
      intro link positive older new
      exact before link positive (older_link link older new) (by simp [idle])
  | lost link current => exact fun other positive older _ => closed link rfl current other positive older
  | redialled link user url closing reached =>
      intro other positive older new
      have current := r.connection.closing_link link _ closing
      exact closed link rfl current other positive (older_link other older new)

theorem said_current (ended : Ended ts r.connection) (orderly : ClosesLast (ts ++ [(r, i)])) (link : LinkId)
    (said : saidOpen? (r, i) = some link) : r.connection.link? = some link := by
  have own := (said_open (r, i) link).mp said
  by_contra gone
  cases i with
  | report x =>
      rw [reportOf] at own
      simp only at own
      split at own
      · rename_i numbered
        obtain ⟨before, after, split⟩ := List.append_of_mem (ended link numbered.2.1 numbered.2.2 gone)
        have last := orderly link before (after ++ [.opened])
          (by rw [reports_snoc, (said_open _ link).mp said, split]; simp)
        simp at last
      · cases own
  | command | line | failure => cases own

theorem last_still (ended : Ended ts r.connection) (orderly : ClosesLast (ts ++ [(r, i)])) (link : LinkId)
    (current : r.connection.link? = some link) (latest : lastOpened ts = some link) :
    lastOpened (ts ++ [(r, i)]) = some link := by
  rw [last_opened_snoc]
  cases said : saidOpen? (r, i) with
  | none => exact latest
  | some other =>
      have now := said_current ts r i ended orderly other said
      rw [current] at now
      cases now
      rfl

theorem current_names (fresh : Fresh c k) (tracked : Tracked ts c.link k) (attributed : Attributed ts c k)
    (online : c.link = .online) : ∃ link user, k.link? = some link ∧ Names ts c link user := by
  rcases tracked.online online with ⟨link, user, up⟩ | ⟨link, closing⟩
  · obtain ⟨latest, owner⟩ := attributed.opened link user up
    have live : k.live? = some (link, user) := by simp [Connection.live?, up]
    have stays := attributed.live link user live
    exact ⟨link, user, k.live_link link user live, latest, owner, fresh.named link user live,
      fun _ => fresh.online link user up, fun parted => absurd parted stays⟩
  · obtain ⟨user, names⟩ := attributed.closing link closing online
    exact ⟨link, user, k.closing_link link none closing, names⟩

variable (ended : Ended ts r.connection) (orderly : ClosesLast (ts ++ [(r, i)]))
include ended orderly

theorem names_still (stays : r.command? i = some .disconnect → r.client.accepts .disconnect = false)
    (link : LinkId) (user : String) (current : r.connection.link? = some link)
    (names : Names ts r.client link user) (same : c.session.userId = r.client.session.userId) :
    Names (ts ++ [(r, i)]) c link user := by
  refine ⟨last_still ts r i ended orderly link current names.latest,
    user_still ts _ link user names.owner, names.named, ?_, ?_⟩
  · rw [parted_still ts r i stays, same]
    exact names.stays
  · rw [parted_still ts r i stays, same]
    exact names.parts

theorem attributed_still (attributed : Attributed ts r.client r.connection)
    (stays : r.command? i = some .disconnect → r.client.accepts .disconnect = false)
    (same : c.session.userId = r.client.session.userId) (online : c.link = .online → r.client.link = .online) :
    Attributed (ts ++ [(r, i)]) c r.connection := by
  refine ⟨fun link user live => ?_, fun link user up => ?_, fun link closing now => ?_⟩
  · rw [parted_still ts r i stays]
    exact attributed.live link user live
  · obtain ⟨latest, owner⟩ := attributed.opened link user up
    exact ⟨last_still ts r i ended orderly link (by simp [Connection.link?, up]) latest,
      user_still ts _ link user owner⟩
  · obtain ⟨user, names⟩ := attributed.closing link closing (online now)
    exact ⟨user, names_still ts r i c ended orderly stays link user
      (r.connection.closing_link link none closing) names same⟩

theorem move_attributed (linked : r.Linked) (aged : Aged ts r.connection) (fresh : Fresh r.client r.connection)
    (tracked : Tracked ts r.client.link r.connection) (attributed : Attributed ts r.client r.connection)
    (move : Move r i c k) (other : r.command? i ≠ some .disconnect) : Attributed (ts ++ [(r, i)]) c k := by
  have stays : r.command? i = some .disconnect → r.client.accepts .disconnect = false :=
    fun given => absurd given other
  have still := attributed_still ts r i c ended orderly attributed stays
  cases move with
  | idled => exact still rfl id
  | unreached => exact still rfl (fun online => by cases online)
  | withdrawn => exact still rfl id
  | heard link user text live =>
      have spared := text_spares r.client text
      exact still spared.user fun online => spared.link.symm.trans online
  | troubled => exact still rfl (fun online => by cases online)
  | redirected | lost => exact ⟨by simp [Connection.live?, Connection.gone], by simp [Connection.gone],
      by simp [Connection.gone]⟩
  | dialled | redialled =>
      refine ⟨fun link user live => ?_, fun link user up => (by cases up), fun link closing => by cases closing⟩
      cases live
      rw [parted_still ts r _ stays]
      exact fresh_unparted ts r.connection aged
  | parted _ link user given live => exact absurd given other
  | abandoned _ link given quick current =>
      refine ⟨fun link user live => (by cases live), fun link user up => (by cases up), ?_⟩
      intro last closing online
      cases closing
      obtain ⟨named, user, now, names⟩ := current_names ts r.client r.connection fresh tracked attributed online
      rw [current] at now
      cases now
      exact ⟨user, names_still ts r i _ ended orderly stays link user current names rfl⟩
  | opened link user connecting =>
      have live : r.connection.live? = some (link, user) := by simp [Connection.live?, connecting]
      have current := r.connection.live_link link user live
      refine ⟨fun last owner now => ?_, fun last owner up => ?_, fun last closing => by cases closing⟩
      · cases now
        rw [parted_still ts r _ stays]
        exact attributed.live link user live
      · cases up
        refine ⟨?_, user_known ts r _ aged link user connecting⟩
        rw [last_opened_snoc, (said_open _ link).mpr (report_own ts r linked aged link .opened current)]
        rfl

theorem next_attributed (next : Run) (linked : r.Linked) (aged : Aged ts r.connection)
    (fresh : Fresh r.client r.connection) (tracked : Tracked ts r.client.link r.connection)
    (attributed : Attributed ts r.client r.connection) (goes : r.next? i = some next) :
    Attributed (ts ++ [(r, i)]) next.client next.connection := by
  by_cases given : r.command? i = some .disconnect
  · cases on : r.client.accepts .disconnect with
    | false =>
        obtain ⟨client, connection⟩ := refused_settles r next i _ given goes on
        rw [client, connection]
        exact attributed_still ts r i _ ended orderly attributed (fun _ => on) rfl id
    | true =>
        obtain ⟨link, user, live, client, connection⟩ := disconnect_parts r next linked i given goes on
        rw [client, connection]
        have current := r.connection.live_link link user live
        have parted : Parted (ts ++ [(r, i)]) link := (parted_snoc ts r i link).mpr (.inr ⟨given, on, current⟩)
        refine ⟨fun link user live => (by cases live), fun link user up => (by cases up), ?_⟩
        intro last closing online
        cases closing
        obtain ⟨_, owner, now, names⟩ := current_names ts r.client r.connection fresh tracked attributed online
        rw [current] at now
        cases now
        exact ⟨owner, last_still ts r i ended orderly link current names.latest,
          user_still ts _ link owner names.owner, names.named, fun stays => absurd parted stays, fun _ => rfl⟩
  · exact move_attributed ts r i _ _ ended orderly linked aged fresh tracked attributed
      (next_moves r next linked i goes) given

omit ended orderly

theorem waiting_attributed (endpoint : Endpoint) (room memory : Option String) (is : List Input) (w : Run)
    (opens : OpensFirst ((new endpoint room memory).handled is))
    (closes : ClosesLast ((new endpoint room memory).handled is))
    (waits : (new endpoint room memory).waiting? is = some w) :
    Fresh w.client w.connection ∧ Attributed ((new endpoint room memory).handled is) w.client w.connection := by
  have everywhere := waiting_keeps
    (fun ts w => (Reached w.connection ∧ Tracked ts w.client.link w.connection ∧ Ended ts w.connection) ∧
      (OpensFirst ts → ClosesLast ts → Fresh w.client w.connection ∧ Attributed ts w.client w.connection))
    endpoint room memory ?_ ?_ is w waits
  · exact everywhere.2.2.2 opens closes
  · have fresh := start_fresh endpoint room memory
    rw [start_client, start_connection] at fresh ⊢
    rw [start_status]
    refine ⟨⟨fun link current => (by cases current), tracked_unlinked [] _ rfl, ?_⟩, fun _ _ => ⟨fresh, ?_⟩⟩
    · exact fun link positive older => absurd positive (Nat.not_lt.mpr (Nat.le_of_lt_succ older))
    · exact ⟨fun link user live => (by cases live), fun link user up => (by cases up),
        fun link closing => by cases closing⟩
  · rintro ts r i next linked aged ⟨⟨reached, tracked, ended⟩, earlier⟩ goes
    have move := next_moves r next linked i goes
    refine ⟨⟨move_reached r i _ _ reached move, move_tracked ts r i _ _ aged reached tracked move,
      move_ended ts r i _ _ linked aged ended move⟩, fun opens closes => ?_⟩
    obtain ⟨fresh, attributed⟩ := earlier (opens_first_earlier ts _ opens) (closes_last_earlier ts _ closes)
    exact ⟨move_fresh ts r i _ _ linked aged fresh opens move,
      next_attributed ts r i ended closes next linked aged fresh tracked attributed goes⟩

theorem online_as_unless_parted (endpoint : Endpoint) (room memory : Option String) (is : List Input) (w : Run)
    (opens : OpensFirst ((new endpoint room memory).handled is))
    (closes : ClosesLast ((new endpoint room memory).handled is))
    (waits : (new endpoint room memory).waiting? is = some w) (base : Url) (page : Page)
    (shown : (w.pages base).getLast? = some page) (online : page.link = .online) :
    ∃ link user, w.connection.link? = some link ∧
      lastOpened ((new endpoint room memory).handled is) = some link ∧
      userOf? ((new endpoint room memory).handled is) link = some user ∧ user ≠ "" ∧
      (page.user = user ↔ ¬ Parted ((new endpoint room memory).handled is) link) ∧
      (Parted ((new endpoint room memory).handled is) link → Picture.statusText page = "Online as ") := by
  obtain ⟨fresh, attributed⟩ := waiting_attributed endpoint room memory is w opens closes waits
  have tracked := status_tracks endpoint room memory is w waits
  rw [last_page w (waiting_shows _ w is waits) base] at shown
  cases shown
  obtain ⟨link, user, current, names⟩ := current_names _ _ _ fresh tracked attributed online
  refine ⟨link, user, current, names.latest, names.owner, names.named, ⟨fun same parted => ?_, names.stays⟩, ?_⟩
  · exact names.named (same.symm.trans (names.parts parted))
  · intro parted
    have nobody : (Page.ofClient w.client base).user = "" := names.parts parted
    rw [Picture.statusText, online, nobody]
    rfl

def nextUser : List Input :=
  [.command (.login "alice"), .report ⟨1, .opened⟩, .command .disconnect, .command (.login "bob"),
    .report ⟨1, .closed⟩, .report ⟨2, .opened⟩]

theorem next_user_named :
    ∃ w, (new {} none none).waiting? nextUser = some w ∧
      OpensFirst ((new {} none none).handled nextUser) ∧ ClosesLast ((new {} none none).handled nextUser) ∧
      ∀ base, ∃ page, (w.pages base).getLast? = some page ∧ page.link = .online ∧ page.user = "bob" := by
  have came : ((new {} none none).waiting? nextUser).map (fun w => w.client.link) = some .online := by
    decide +kernel
  have ends : .closed ∉ (reportsOf ((new {} none none).handled nextUser) 1).dropLast := by decide +kernel
  have latest : lastOpened ((new {} none none).handled nextUser) = some 2 := by decide +kernel
  have owner : userOf? ((new {} none none).handled nextUser) 2 = some "bob" := by decide +kernel
  have stays : ¬ Parted ((new {} none none).handled nextUser) 2 := by
    rw [Parted]
    decide +kernel
  obtain ⟨w, waits, online⟩ := Option.map_eq_some_iff.mp came
  have opens := opens_first_of _ w nextUser waits fun link text told => (by simp [nextUser] at told)
  have closes := closes_last_of _ w nextUser waits fun link told => (by
    obtain rfl : link = 1 := by simpa [nextUser] using told
    exact ends)
  refine ⟨w, waits, opens, closes, fun base => ?_⟩
  have shown := last_page w (waiting_shows _ w nextUser waits) base
  obtain ⟨link, user, _, last, known, _, named, _⟩ :=
    online_as_unless_parted {} none none nextUser w opens closes waits base _ shown online
  obtain rfl : 2 = link := Option.some.inj (latest.symm.trans last)
  obtain rfl : "bob" = user := Option.some.inj (owner.symm.trans known)
  exact ⟨_, shown, online, named.mpr stays⟩

def leaving : List Input := [.command (.login "alice"), .report ⟨1, .opened⟩, .command .disconnect]

theorem online_as_nobody :
    ∃ w, (new {} none none).waiting? leaving = some w ∧
      OpensFirst ((new {} none none).handled leaving) ∧ ClosesLast ((new {} none none).handled leaving) ∧
      lastOpened ((new {} none none).handled leaving) = some 1 ∧
      userOf? ((new {} none none).handled leaving) 1 = some "alice" ∧
      ∀ base, ∃ page, (w.pages base).getLast? = some page ∧ page.link = .online ∧ page.user = "" ∧
        Picture.statusText page = "Online as " := by
  have came : ((new {} none none).waiting? leaving).map (fun w => (w.client.link, w.client.session.userId)) =
      some (.online, "") := by
    decide +kernel
  obtain ⟨w, waits, shown⟩ := Option.map_eq_some_iff.mp came
  obtain ⟨online, nobody⟩ : w.client.link = .online ∧ w.client.session.userId = "" := by
    simpa only [Prod.mk.injEq] using shown
  have opens := opens_first_of _ w leaving waits fun link text told => (by simp [leaving] at told)
  have closes := closes_last_of _ w leaving waits fun link told => (by simp [leaving] at told)
  refine ⟨w, waits, opens, closes, by decide +kernel, by decide +kernel, fun base => ?_⟩
  refine ⟨_, last_page w (waiting_shows _ w leaving waits) base, online, nobody, ?_⟩
  simp [Picture.statusText, Page.ofClient, online, nobody]

end Run
end DarkDrop
