import DarkDrop.Proofs.Link.Ledger

namespace DarkDrop
open Wire

def Call.effective (endpoint : Endpoint) : Call → Bool
  | .connect user => (endpoint.url user).isOk
  | .disconnect => true
  | .send _ | .join _ | .receive _ => false

def Notice.isOpened : Notice → Bool
  | .opened _ => true
  | _ => false

namespace Connection

def intention (endpoint : Endpoint) (calls : List Call) : Option Call :=
  (calls.filter (Call.effective endpoint)).getLast?

-- The link was opened for this very intention: in the call that made it the
-- intention or in a later one, and nothing has been intended since.
def OpenedFor (endpoint : Endpoint) (link : LinkId) (user : String) (url : Url)
    (calls : List Call) : Prop :=
  ∃ before since, calls = before ++ .connect user :: since ∧
    (∀ call ∈ since, call.effective endpoint = false) ∧ endpoint.url user = .ok url ∧
    .open link url ∈ ((new endpoint).after before).orders (.connect user :: since)

structure LastIntention (endpoint : Endpoint) (calls : List Call) (report : Report) : Prop where
  spoken : ∀ notice ∈ (((new endpoint).after calls).receive report).notices, notice ≠ .closed →
    .close report.link ∉ (new endpoint).orders calls ∧
      ∃ user url, intention endpoint calls = some (.connect user) ∧
        OpenedFor endpoint report.link user url calls ∧ ∀ who, notice = .opened who → who = user
  redials : ((new endpoint).after calls).link? = some report.link → report.event = .closed →
    ((∃ link url, .open link url ∈ (((new endpoint).after calls).receive report).orders) ↔
      .close report.link ∈ (new endpoint).orders calls ∧
        ∃ user, intention endpoint calls = some (.connect user))
  redialled : ∀ link url, .open link url ∈ (((new endpoint).after calls).receive report).orders →
    (((new endpoint).after calls).receive report).orders = [.open link url] ∧
      ∃ user, intention endpoint calls = some (.connect user) ∧ endpoint.url user = .ok url
  unasked : .close report.link ∉ (new endpoint).orders calls →
    (((new endpoint).after calls).receive report).orders = []
  openedOnce : ∀ link, ((new endpoint).noticesFrom link calls).countP Notice.isOpened ≤ 1
  closedOnce : ∀ link, ((new endpoint).noticesFrom link calls).count .closed ≤ 1
  closedLast : ∀ link, .closed ∈ (new endpoint).noticesFrom link calls →
    ((new endpoint).noticesFrom link calls).getLast? = some .closed

theorem intention_snoc (endpoint : Endpoint) (calls : List Call) (call : Call) :
    intention endpoint (calls ++ [call]) =
      if call.effective endpoint then some call else intention endpoint calls := by
  by_cases effective : call.effective endpoint = true <;> simp [intention, effective]

theorem intention_keeps (endpoint : Endpoint) (calls : List Call) (call : Call)
    (plain : call.effective endpoint = false) :
    intention endpoint (calls ++ [call]) = intention endpoint calls := by
  simp [intention_snoc, plain]

theorem intention_since (endpoint : Endpoint) (before since : List Call) (call : Call)
    (effective : call.effective endpoint = true)
    (plain : ∀ later ∈ since, later.effective endpoint = false) :
    intention endpoint (before ++ call :: since) = some call := by
  have none : since.filter (Call.effective endpoint) = [] := by
    apply List.filter_eq_nil_iff.mpr
    intro later member
    simp [plain later member]
  simp [intention, effective, none]

theorem intention_split (endpoint : Endpoint) (calls : List Call) (call : Call)
    (intended : intention endpoint calls = some call) :
    call.effective endpoint = true ∧ ∃ before since, calls = before ++ call :: since ∧
      ∀ later ∈ since, later.effective endpoint = false := by
  induction calls using List.reverseRecOn with
  | nil => simp [intention] at intended
  | append_singleton calls last ih =>
      rw [intention_snoc] at intended
      by_cases effective : last.effective endpoint = true
      · rw [if_pos effective] at intended
        cases intended
        exact ⟨effective, calls, [], rfl, by simp⟩
      · rw [if_neg effective] at intended
        obtain ⟨known, before, since, split, plain⟩ := ih intended
        refine ⟨known, before, since ++ [last], by simp [split], ?_⟩
        intro later member
        rcases List.mem_append.mp member with earlier | now
        · exact plain later earlier
        · rw [List.mem_singleton.mp now]
          exact Bool.eq_false_iff.mpr effective

theorem connect_effective (endpoint : Endpoint) (user : String) (url : Url)
    (reached : endpoint.url user = .ok url) : (Call.connect user).effective endpoint = true := by
  simp [Call.effective, reached, Except.isOk, Except.toBool]

theorem opened_for_intention (endpoint : Endpoint) (link : LinkId) (user : String) (url : Url)
    (calls : List Call) (openedFor : OpenedFor endpoint link user url calls) :
    intention endpoint calls = some (.connect user) := by
  obtain ⟨before, since, split, plain, reached, _⟩ := openedFor
  rw [split]
  exact intention_since endpoint before since _ (connect_effective endpoint user url reached) plain

theorem opened_for_keeps (endpoint : Endpoint) (link : LinkId) (user : String) (url : Url)
    (calls : List Call) (call : Call) (plain : call.effective endpoint = false)
    (openedFor : OpenedFor endpoint link user url calls) :
    OpenedFor endpoint link user url (calls ++ [call]) := by
  obtain ⟨before, since, split, quiet, reached, opened⟩ := openedFor
  refine ⟨before, since ++ [call], by simp [split], ?_, reached, ?_⟩
  · intro later member
    rcases List.mem_append.mp member with earlier | now
    · exact quiet later earlier
    · rw [List.mem_singleton.mp now]
      exact plain
  · rw [← List.cons_append, orders_snoc]
    exact List.mem_append_left _ opened

theorem dialled_for (endpoint : Endpoint) (calls : List Call) (user : String) (url : Url)
    (reached : endpoint.url user = .ok url) (link : LinkId)
    (opened : .open link url ∈ (((new endpoint).after calls).call (.connect user)).orders) :
    OpenedFor endpoint link user url (calls ++ [.connect user]) :=
  ⟨calls, [], rfl, by simp, reached, by simpa [orders, outcomes] using opened⟩

theorem redialled_for (endpoint : Endpoint) (calls : List Call) (user : String) (url : Url)
    (reached : endpoint.url user = .ok url) (intended : intention endpoint calls = some (.connect user))
    (report : Report) (link : LinkId)
    (opened : .open link url ∈ (((new endpoint).after calls).call (.receive report)).orders) :
    OpenedFor endpoint link user url (calls ++ [.receive report]) := by
  obtain ⟨_, before, since, split, plain⟩ := intention_split endpoint calls _ intended
  refine ⟨before, since ++ [.receive report], by simp [split], ?_, reached, ?_⟩
  · intro later member
    rcases List.mem_append.mp member with earlier | now
    · exact plain later earlier
    · rw [List.mem_singleton.mp now]
      rfl
  · rw [← List.cons_append, orders_snoc, ← after_append, ← split]
    exact List.mem_append_right _ opened

-- What the phase says about the intention: a live link is the intended user's
-- own, and a closing one is followed by whom the intention names, if anyone.
structure Follows (endpoint : Endpoint) (calls : List Call) (c : Connection) : Prop where
  live : ∀ link user, c.live? = some (link, user) → ∃ url, OpenedFor endpoint link user url calls
  waiting : ∀ link user, c.phase = .disconnecting link (some user) →
    intention endpoint calls = some (.connect user)
  leaving : ∀ link, c.phase = .disconnecting link none → intention endpoint calls = some .disconnect

theorem follows_keeps (endpoint : Endpoint) (calls : List Call) (call : Call) (c : Connection)
    (plain : call.effective endpoint = false) (follows : Follows endpoint calls c) :
    Follows endpoint (calls ++ [call]) c := by
  refine ⟨?_, ?_, ?_⟩
  · intro link user live
    obtain ⟨url, openedFor⟩ := follows.live link user live
    exact ⟨url, opened_for_keeps endpoint link user url calls call plain openedFor⟩
  · intro link user closing
    rw [intention_keeps endpoint calls call plain]
    exact follows.waiting link user closing
  · intro link closing
    rw [intention_keeps endpoint calls call plain]
    exact follows.leaving link closing

theorem follows_waiting (endpoint : Endpoint) (calls : List Call) (c : Connection) (link : LinkId)
    (user : String) (intended : intention endpoint calls = some (.connect user)) :
    Follows endpoint calls { c with phase := .disconnecting link (some user) } := by
  refine ⟨by simp [live?], ?_, by simp⟩
  rintro other who phase
  cases phase
  exact intended

theorem follows_leaving (endpoint : Endpoint) (calls : List Call) (c : Connection) (link : LinkId)
    (intended : intention endpoint calls = some .disconnect) :
    Follows endpoint calls { c with phase := .disconnecting link none } :=
  ⟨by simp [live?], by simp, fun _ _ => intended⟩

theorem follows_dialling (endpoint : Endpoint) (calls : List Call) (c : Connection) (user : String)
    (url : Url) (openedFor : OpenedFor endpoint c.next user url calls) :
    Follows endpoint calls (c.dialling user) := by
  refine ⟨?_, by simp [dialling], by simp [dialling]⟩
  intro link who live
  cases live
  exact ⟨url, openedFor⟩

theorem follows_idle (endpoint : Endpoint) (calls : List Call) (c : Connection)
    (idle : c.link? = none) : Follows endpoint calls c := by
  refine ⟨?_, ?_, ?_⟩
  · intro link user live
    simp [live_link c link user live] at idle
  · intro link user closing
    simp [closing_link c link _ closing] at idle
  · intro link closing
    simp [closing_link c link _ closing] at idle

theorem after_follows (endpoint : Endpoint) (calls : List Call) :
    Follows endpoint calls ((new endpoint).after calls) := by
  induction calls using List.reverseRecOn with
  | nil => exact follows_idle endpoint [] _ rfl
  | append_singleton calls call ih =>
      have sound := after_sound _ (new_sound endpoint) calls
      have here : ((new endpoint).after calls).endpoint = endpoint :=
        after_endpoint _ (new_sound endpoint) calls
      have move := call_moves _ sound call
      rw [after_snoc]
      generalize made : ((new endpoint).after calls).call call = outcome at move
      cases move with
      | refused user e unreached =>
          rw [here] at unreached
          exact follows_keeps endpoint calls _ _ (by simp [Call.effective, unreached, Except.isOk,
            Except.toBool]) ih
      | superseded user url link old reached live =>
          rw [here] at reached
          have effective := connect_effective endpoint user url reached
          exact follows_waiting endpoint _ _ link user (by rw [intention_snoc, if_pos effective])
      | redirected user url link waiting reached closing =>
          rw [here] at reached
          have effective := connect_effective endpoint user url reached
          exact follows_waiting endpoint _ _ link user (by rw [intention_snoc, if_pos effective])
      | dialled user url reached idle =>
          rw [here] at reached
          refine follows_dialling endpoint _ _ user url (dialled_for endpoint calls user url reached _ ?_)
          simp [made]
      | dropped link user live => exact follows_leaving endpoint _ _ link (by simp [intention_snoc, Call.effective])
      | cancelled link waiting closing =>
          exact follows_leaving endpoint _ _ link (by simp [intention_snoc, Call.effective])
      | unneeded idle => exact follows_idle endpoint _ _ idle
      | sent call message link user asks live =>
          refine follows_keeps endpoint calls _ _ ?_ ih
          cases call <;> simp_all [Call.message?, Call.effective]
      | unsent | unjoined | ignored | heard => exact follows_keeps endpoint calls _ _ rfl ih
      | opened link user connecting =>
          have kept := follows_keeps endpoint calls (.receive ⟨link, .opened⟩) _ rfl ih
          refine ⟨fun other who live => kept.live other who ?_, by simp, by simp⟩
          simpa [live?, connecting] using live
      | lost | ended => exact follows_idle endpoint _ _ rfl
      | redialled link user url closing reached =>
          rw [here] at reached
          have intended := ih.waiting link user closing
          refine follows_dialling endpoint _ _ user url
            (redialled_for endpoint calls user url reached intended _ _ ?_)
          simp [made]

structure Voiced (c : Connection) (link : LinkId) (told : List Notice) : Prop where
  unborn : c.next ≤ link → told = []
  connecting : ∀ user, c.phase = .connecting link user → told.countP Notice.isOpened = 0
  current : c.link? = some link → .closed ∉ told
  openedOnce : told.countP Notice.isOpened ≤ 1
  closedOnce : told.count .closed ≤ 1
  closedLast : .closed ∈ told → told.getLast? = some .closed

theorem move_connecting (c : Connection) (call : Call) (outcome : Outcome)
    (move : Move c call outcome) (link : LinkId) (user : String)
    (connecting : outcome.connection.phase = .connecting link user) :
    c.phase = .connecting link user ∨ link = c.next := by
  cases move with
  | dialled | redialled =>
      cases connecting
      exact .inr rfl
  | superseded | redirected | dropped | cancelled | opened | lost | ended => cases connecting
  | refused | unneeded | sent | unsent | unjoined | ignored | heard => exact .inl connecting

theorem move_arrives (c : Connection) (call : Call) (outcome : Outcome) (move : Move c call outcome) :
    c.next ≤ outcome.connection.next ∧
      (∀ link, outcome.connection.link? = some link → c.link? = some link ∨ link = c.next) ∧
      ∀ link user, outcome.connection.phase = .connecting link user →
        c.phase = .connecting link user ∨ link = c.next := by
  refine ⟨?_, ?_, move_connecting c call outcome move⟩
  · obtain ⟨more, grown, _⟩ := move_counts c call outcome move
    exact Nat.le.intro grown.symm
  · intro link current
    rcases move_links c call outcome move with ⟨same, _⟩ | ⟨fresh, _⟩ | ⟨lost, _⟩
    · exact .inl (same.symm.trans current)
    · exact .inr (Option.some.inj (current.symm.trans fresh))
    · cases lost.symm.trans current

theorem voiced_silent (c : Connection) (link : LinkId) (told : List Notice) (call : Call)
    (outcome : Outcome) (move : Move c call outcome) (voiced : Voiced c link told) :
    Voiced outcome.connection link told := by
  obtain ⟨grows, current, connecting⟩ := move_arrives c call outcome move
  refine ⟨fun unborn => voiced.unborn (Nat.le_trans grows unborn), ?_, ?_, voiced.openedOnce,
    voiced.closedOnce, voiced.closedLast⟩
  · intro user phase
    rcases connecting link user phase with before | fresh
    · exact voiced.connecting user before
    · simp [voiced.unborn (Nat.le_of_eq fresh.symm)]
  · intro held
    rcases current link held with before | fresh
    · exact voiced.current before
    · simp [voiced.unborn (Nat.le_of_eq fresh.symm)]

theorem voiced_plain (c : Connection) (sound : c.Sound) (link : LinkId) (told : List Notice)
    (notice : Notice) (current : c.link? = some link) (notClosed : notice ≠ .closed)
    (notOpened : notice.isOpened = false) (voiced : Voiced c link told) :
    Voiced c link (told ++ [notice]) := by
  have absent : .closed ∉ told := voiced.current current
  refine ⟨fun unborn => ?_, ?_, ?_, ?_, ?_, ?_⟩
  · exact absurd (current_old c sound link current) (Nat.not_lt.mpr unborn)
  · intro user phase
    simpa [notOpened] using voiced.connecting user phase
  · simp [absent, notClosed.symm]
  · simpa [notOpened] using voiced.openedOnce
  · simpa [notClosed] using voiced.closedOnce
  · simp [absent, notClosed.symm]

theorem voiced_opened (c : Connection) (sound : c.Sound) (link : LinkId) (user : String)
    (told : List Notice) (connecting : c.phase = .connecting link user) (voiced : Voiced c link told) :
    Voiced { c with phase := .open link user } link (told ++ [.opened user]) := by
  have current : c.link? = some link := by simp [link?, connecting]
  have absent : .closed ∉ told := voiced.current current
  refine ⟨fun unborn => ?_, by simp, ?_, ?_, ?_, ?_⟩
  · exact absurd (current_old c sound link current) (Nat.not_lt.mpr unborn)
  · simp [absent]
  · simp [voiced.connecting user connecting, Notice.isOpened]
  · simpa using voiced.closedOnce
  · simp [absent]

theorem voiced_closed (c next : Connection) (sound : c.Sound) (link : LinkId) (told : List Notice)
    (current : c.link? = some link) (grows : c.next ≤ next.next) (left : next.link? ≠ some link)
    (voiced : Voiced c link told) : Voiced next link (told ++ [.closed]) := by
  have absent : .closed ∉ told := voiced.current current
  have old := current_old c sound link current
  refine ⟨fun unborn => ?_, ?_, fun held => absurd held left, ?_, ?_, by simp⟩
  · exact absurd (Nat.lt_of_lt_of_le old grows) (Nat.not_lt.mpr unborn)
  · intro user phase
    exact absurd (by simp [link?, phase]) left
  · simpa [Notice.isOpened] using voiced.openedOnce
  · simp [List.count_eq_zero.mpr absent]

theorem voiced_reported (c : Connection) (sound : c.Sound) (report : Report) (told : List Notice)
    (outcome : Outcome) (move : Move c (.receive report) outcome)
    (voiced : Voiced c report.link told) :
    Voiced outcome.connection report.link (told ++ outcome.notices) := by
  cases move with
  | opened link user connecting => exact voiced_opened c sound link user told connecting voiced
  | heard _ notice user live plain =>
      obtain ⟨notClosed, notOpened⟩ := notice_plain report.event notice plain
      refine voiced_plain c sound _ told notice (live_link c _ user live) notClosed ?_ voiced
      cases notice with
      | opened who => exact absurd rfl (notOpened who)
      | _ => rfl
  | lost link user live =>
      exact voiced_closed c c.gone sound link told (live_link c link user live) (Nat.le_refl _)
        (by simp [gone, link?]) voiced
  | ended link closing =>
      exact voiced_closed c c.gone sound link told (closing_link c link none closing) (Nat.le_refl _)
        (by simp [gone, link?]) voiced
  | redialled link user url closing reached =>
      have current := closing_link c link _ closing
      refine voiced_closed c (c.dialling user) sound link told current (Nat.le_succ _) ?_ voiced
      intro same
      exact Nat.ne_of_gt (current_old c sound link current) (Option.some.inj same)
  | ignored | sent =>
      rw [List.append_nil]
      exact voiced

theorem after_voiced (endpoint : Endpoint) (link : LinkId) (calls : List Call) :
    Voiced ((new endpoint).after calls) link ((new endpoint).noticesFrom link calls) := by
  induction calls using List.reverseRecOn with
  | nil => exact ⟨fun _ => rfl, by simp [after, new], by simp [after, new, link?], Nat.zero_le _,
      Nat.zero_le _, by simp [noticesFrom, outcomes]⟩
  | append_singleton calls call ih =>
      have sound := after_sound _ (new_sound endpoint) calls
      have move := call_moves _ sound call
      rw [after_snoc, notices_from_snoc]
      by_cases reports : call.reports link = true
      · rw [if_pos reports]
        cases call with
        | receive report =>
            have same : report.link = link := by simpa [Call.reports] using reports
            subst same
            exact voiced_reported _ sound report _ _ move ih
        | _ => simp [Call.reports] at reports
      · rw [if_neg reports, List.append_nil]
        exact voiced_silent _ link _ call _ move ih

theorem live_unasked (c : Connection) (sound : c.Sound) (link : LinkId) (user : String)
    (calls : List Call) (live : (c.after calls).live? = some (link, user)) :
    .close link ∉ c.orders calls :=
  fun asked => (asked_retired c sound link calls asked).quiet user live

theorem spoken_for (endpoint : Endpoint) (calls : List Call) (link : LinkId) (user : String)
    (live : ((new endpoint).after calls).live? = some (link, user)) :
    .close link ∉ (new endpoint).orders calls ∧
      ∃ url, intention endpoint calls = some (.connect user) ∧
        OpenedFor endpoint link user url calls := by
  obtain ⟨url, openedFor⟩ := (after_follows endpoint calls).live link user live
  exact ⟨live_unasked _ (new_sound endpoint) link user calls live, url,
    opened_for_intention endpoint link user url calls openedFor, openedFor⟩

theorem report_spoken (endpoint : Endpoint) (calls : List Call) (report : Report) (notice : Notice)
    (told : notice ∈ (((new endpoint).after calls).receive report).notices)
    (notClosed : notice ≠ .closed) :
    .close report.link ∉ (new endpoint).orders calls ∧
      ∃ user url, intention endpoint calls = some (.connect user) ∧
        OpenedFor endpoint report.link user url calls ∧ ∀ who, notice = .opened who → who = user := by
  have sound := after_sound _ (new_sound endpoint) calls
  have move := receive_moves _ sound report
  generalize ((new endpoint).after calls).receive report = outcome at move told
  cases move with
  | opened link user connecting =>
      obtain ⟨unasked, url, intended, openedFor⟩ :=
        spoken_for endpoint calls link user (by simp [live?, connecting])
      refine ⟨unasked, user, url, intended, openedFor, ?_⟩
      rintro who same
      have opened : notice = .opened user := List.mem_singleton.mp told
      exact Notice.opened.inj (same.symm.trans opened)
  | heard _ plain user live tells =>
      obtain ⟨unasked, url, intended, openedFor⟩ := spoken_for endpoint calls report.link user live
      refine ⟨unasked, user, url, intended, openedFor, fun who same => ?_⟩
      have heard : notice = plain := List.mem_singleton.mp told
      exact absurd (heard.symm.trans same) ((notice_plain report.event plain tells).2 who)
  | lost | ended | redialled => exact absurd (List.mem_singleton.mp told) notClosed
  | ignored | sent => simp at told

theorem closed_redials (endpoint : Endpoint) (calls : List Call) (report : Report)
    (current : ((new endpoint).after calls).link? = some report.link)
    (last : report.event = .closed) :
    (∃ link url, .open link url ∈ (((new endpoint).after calls).receive report).orders) ↔
      .close report.link ∈ (new endpoint).orders calls ∧
        ∃ user, intention endpoint calls = some (.connect user) := by
  have start := new_sound endpoint
  have sound := after_sound _ start calls
  have follows := after_follows endpoint calls
  have move := receive_moves _ sound report
  generalize ((new endpoint).after calls).receive report = outcome at move
  cases move with
  | ignored _ stale => exact absurd last (stale current)
  | opened => cases last
  | sent _ _ _ _ asks => simp [Call.message?] at asks
  | heard _ _ _ _ tells => simp [last, LinkEvent.notice?] at tells
  | lost link user live =>
      have unasked := live_unasked _ start link user calls live
      simp [unasked]
  | ended link closing =>
      have leaving := follows.leaving link closing
      simp [leaving]
  | redialled link user url closing reached =>
      have asked := entered_asked _ start rfl link (some user) calls closing
      have intended := follows.waiting link user closing
      simp [asked, intended]

theorem report_redials (endpoint : Endpoint) (calls : List Call) (report : Report) (link : LinkId)
    (url : Url) (opened : .open link url ∈ (((new endpoint).after calls).receive report).orders) :
    (((new endpoint).after calls).receive report).orders = [.open link url] ∧
      ∃ user, intention endpoint calls = some (.connect user) ∧ endpoint.url user = .ok url := by
  have start := new_sound endpoint
  have sound := after_sound _ start calls
  have here : ((new endpoint).after calls).endpoint = endpoint := after_endpoint _ start calls
  have follows := after_follows endpoint calls
  have move := receive_moves _ sound report
  generalize ((new endpoint).after calls).receive report = outcome at move opened
  cases move with
  | redialled closed user other closing reached =>
      rw [here] at reached
      have same := List.mem_singleton.mp opened
      cases same
      exact ⟨rfl, user, follows.waiting closed user closing, reached⟩
  | sent _ _ _ _ asks => simp [Call.message?] at asks
  | ignored | opened | heard | lost | ended => simp at opened

theorem unasked_orders (endpoint : Endpoint) (calls : List Call) (report : Report)
    (unasked : .close report.link ∉ (new endpoint).orders calls) :
    (((new endpoint).after calls).receive report).orders = [] := by
  have start := new_sound endpoint
  have sound := after_sound _ start calls
  have move := receive_moves _ sound report
  generalize ((new endpoint).after calls).receive report = outcome at move
  cases move with
  | redialled link user url closing reached =>
      exact absurd (entered_asked _ start rfl link (some user) calls closing) unasked
  | sent _ _ _ _ asks => simp [Call.message?] at asks
  | ignored | opened | heard | lost | ended => rfl

theorem last_intention_wins (endpoint : Endpoint) (calls : List Call) (report : Report) :
    LastIntention endpoint calls report := by
  have voiced := fun link => after_voiced endpoint link calls
  exact {
    spoken := report_spoken endpoint calls report
    redials := closed_redials endpoint calls report
    redialled := report_redials endpoint calls report
    unasked := unasked_orders endpoint calls report
    openedOnce := fun link => (voiced link).openedOnce
    closedOnce := fun link => (voiced link).closedOnce
    closedLast := fun link => (voiced link).closedLast
  }

end Connection
end DarkDrop
