import DarkDrop.Proofs.Play.History

namespace DarkDrop
open Wire

theorem Endpoint.url_reached (e : Endpoint) (user other : String) (url : Url)
    (reached : e.url user = .ok url) (named : other.isEmpty = false) : ∃ next, e.url other = .ok next := by
  rw [Endpoint.url] at reached
  split at reached
  · cases reached
  · cases base : e.base with
    | error x =>
        rw [base] at reached
        cases reached
    | ok root => exact ⟨_, by rw [Endpoint.url, if_neg (by simp [named]), base]; rfl⟩

namespace Run

-- The link reported an error while the connection was in this very phase. A phase
-- is never entered twice, so that is since the link was opened, or had opened.
def Troubled (ts : List (Run × Input)) (link : LinkId) (phase : Phase) : Prop :=
  ∃ t ∈ ts, t.1.connection.phase = phase ∧ ∃ e, t.2 = .report ⟨link, .error e⟩

structure Tracked (ts : List (Run × Input)) (status : LinkStatus) (k : Connection) : Prop where
  unlinked : k.link? = none → status = .offline
  connecting : ∀ link user, k.phase = .connecting link user →
    (status = .connecting ∧ ¬ Troubled ts link k.phase) ∨ (status = .offline ∧ Troubled ts link k.phase)
  opened : ∀ link user, k.phase = .open link user →
    (status = .online ∧ ¬ Troubled ts link k.phase) ∨ (status = .offline ∧ Troubled ts link k.phase)
  reconnecting : ∀ link user, k.phase = .disconnecting link (some user) → status = .connecting
  online : status = .online →
    (∃ link user, k.phase = .open link user) ∨ ∃ link, k.phase = .disconnecting link none

theorem troubled_snoc (ts : List (Run × Input)) (t : Run × Input) (link : LinkId) (phase : Phase) :
    Troubled (ts ++ [t]) link phase ↔ Troubled ts link phase ∨
      t.1.connection.phase = phase ∧ ∃ e, t.2 = .report ⟨link, .error e⟩ := by
  simp only [Troubled, List.mem_append, List.mem_singleton]
  constructor
  · rintro ⟨s, earlier | rfl, then_⟩
    · exact .inl ⟨s, earlier, then_⟩
    · exact .inr then_
  · rintro (⟨s, earlier, then_⟩ | now)
    · exact ⟨s, .inl earlier, then_⟩
    · exact ⟨t, .inr rfl, now⟩

theorem tracked_unlinked (ts : List (Run × Input)) (k : Connection) (idle : k.link? = none) :
    Tracked ts .offline k := by
  have phaseless : ∀ phase, k.phase = phase → Connection.link? { k with phase := phase } = none := by
    rintro _ rfl
    exact idle
  refine ⟨fun _ => rfl, ?_, ?_, ?_, by simp⟩
  · intro link user phase
    cases phaseless _ phase
  · intro link user phase
    cases phaseless _ phase
  · intro link user phase
    cases phaseless _ phase

theorem tracked_leaving (ts : List (Run × Input)) (status : LinkStatus) (k : Connection) (link : LinkId) :
    Tracked ts status { k with phase := .disconnecting link none } :=
  ⟨by simp [Connection.link?], by simp, by simp, by simp, by simp⟩

theorem tracked_waiting (ts : List (Run × Input)) (k : Connection) (link : LinkId) (user : String) :
    Tracked ts .connecting { k with phase := .disconnecting link (some user) } :=
  ⟨by simp [Connection.link?], by simp, by simp, by simp, by simp⟩

theorem tracked_dialling (ts : List (Run × Input)) (k : Connection) (aged : Aged ts k) (t : Run × Input)
    (user : String) (other : t.1.connection.phase ≠ .connecting k.next user) :
    Tracked (ts ++ [t]) .connecting (k.dialling user) := by
  have fresh : ¬ Troubled (ts ++ [t]) k.next (.connecting k.next user) := by
    rw [troubled_snoc]
    rintro (⟨s, member, same, _⟩ | ⟨same, _⟩)
    · exact Nat.lt_irrefl _ (current_older ts k aged s member k.next (by simp [Connection.link?, same]))
    · exact other same
  refine ⟨by simp [Connection.link?, Connection.dialling], ?_, ?_, ?_, by simp⟩
  · intro link owner phase
    cases phase
    exact .inl ⟨rfl, fresh⟩
  · intro link owner phase
    cases phase
  · intro link owner phase
    cases phase

theorem tracked_kept (ts : List (Run × Input)) (r : Run) (i : Input)
    (tracked : Tracked ts r.client.link r.connection)
    (calm : ∀ link user e, r.connection.live? = some (link, user) → i ≠ .report ⟨link, .error e⟩) :
    Tracked (ts ++ [(r, i)]) r.client.link r.connection := by
  have same : ∀ link user, r.connection.live? = some (link, user) →
      (Troubled (ts ++ [(r, i)]) link r.connection.phase ↔ Troubled ts link r.connection.phase) := by
    intro link user live
    rw [troubled_snoc]
    refine ⟨fun told => told.resolve_right ?_, .inl⟩
    rintro ⟨_, e, report⟩
    exact calm link user e live report
  refine ⟨tracked.unlinked, ?_, ?_, tracked.reconnecting, tracked.online⟩
  · intro link user phase
    rw [same link user (by simp [Connection.live?, phase])]
    exact tracked.connecting link user phase
  · intro link user phase
    rw [same link user (by simp [Connection.live?, phase])]
    exact tracked.opened link user phase

theorem tracked_opened (ts : List (Run × Input)) (r : Run) (i : Input) (aged : Aged ts r.connection)
    (link : LinkId) (user : String)
    (connecting : r.connection.phase = .connecting link user) :
    Tracked (ts ++ [(r, i)]) .online { r.connection with phase := .open link user } := by
  have fresh : ¬ Troubled (ts ++ [(r, i)]) link (.open link user) := by
    rw [troubled_snoc]
    rintro (⟨t, member, same, _⟩ | ⟨same, _⟩)
    · have older := t.1.connection.current_old (aged.sound t member) link
        (by simp [Connection.link?, same])
      have before := (aged.opening link user connecting t member older).1
      rw [before] at same
      cases same
    · rw [show r.connection.phase = _ from same] at connecting
      cases connecting
  refine ⟨by simp [Connection.link?], by simp, ?_, by simp, fun _ => .inl ⟨link, user, rfl⟩⟩
  intro other owner phase
  cases phase
  exact .inl ⟨rfl, fresh⟩

theorem tracked_troubled (ts : List (Run × Input)) (r : Run) (link : LinkId) (user : String)
    (e : LinkError) (live : r.connection.live? = some (link, user)) :
    Tracked (ts ++ [(r, .report ⟨link, .error e⟩)]) .offline r.connection := by
  have current := r.connection.live_link link user live
  have told : ∀ other, r.connection.link? = some other →
      Troubled (ts ++ [(r, .report ⟨link, .error e⟩)]) other r.connection.phase := by
    intro other same
    cases same.symm.trans current
    exact (troubled_snoc _ _ _ _).mpr (.inr ⟨rfl, e, rfl⟩)
  refine ⟨fun _ => rfl, ?_, ?_, ?_, by simp⟩
  · intro other owner phase
    exact .inr ⟨rfl, told other (by simp [Connection.link?, phase])⟩
  · intro other owner phase
    exact .inr ⟨rfl, told other (by simp [Connection.link?, phase])⟩
  · intro other owner phase
    simp [Connection.live?, phase] at live

-- A login can only fail where there is no link: the endpoint of a link that was
-- opened has a URL for every user.
def Reached (k : Connection) : Prop :=
  ∀ link, k.link? = some link → ∃ user url, k.endpoint.url user = .ok url

theorem move_reached (r : Run) (i : Input) (c : Client) (k : Connection) (reached : Reached r.connection)
    (move : Move r i c k) : Reached k := by
  cases move with
  | dialled _ typed url given idle found => exact fun _ _ => ⟨_, url, found⟩
  | redialled link user url closing found => exact fun _ _ => ⟨user, url, found⟩
  | redirected _ typed link given outside current => exact fun _ _ => reached link current
  | parted _ link user given live => exact fun _ _ => reached link (r.connection.live_link link user live)
  | abandoned _ link given quick current => exact fun _ _ => reached link current
  | opened link user connecting => exact fun _ _ => reached link (by simp [Connection.link?, connecting])
  | lost => exact fun _ current => by cases current
  | idled | unreached | withdrawn | heard | troubled => exact reached

theorem move_tracked (ts : List (Run × Input)) (r : Run) (i : Input) (c : Client) (k : Connection)
    (aged : Aged ts r.connection) (reached : Reached r.connection)
    (tracked : Tracked ts r.client.link r.connection) (move : Move r i c k) :
    Tracked (ts ++ [(r, i)]) c.link k := by
  cases move with
  | idled _ cached unmoved stays =>
      refine tracked_kept ts r i tracked fun link user e live same => ?_
      have told := error_told r.connection link user e live
      rw [unmoved _ same] at told
      cases told
  | unreached _ typed e cached given named failed =>
      refine tracked_unlinked _ _ ?_
      by_contra current
      obtain ⟨link, current⟩ := Option.ne_none_iff_exists'.mp current
      obtain ⟨user, url, found⟩ := reached link current
      obtain ⟨other, again⟩ := r.connection.endpoint.url_reached user _ url found named
      rw [failed] at again
      cases again
  | redirected _ typed link given outside current => exact tracked_waiting _ _ link _
  | dialled _ typed url given idle found =>
      refine tracked_dialling ts r.connection aged (r, i) _ fun connecting => ?_
      simp [Connection.link?, show r.connection.phase = _ from connecting] at idle
  | parted _ link user given live => exact tracked_leaving _ _ _ link
  | abandoned _ link given quick current => exact tracked_leaving _ _ _ link
  | withdrawn _ given quick idle =>
      refine tracked_kept ts r i tracked fun link user e live same => ?_
      rw [same] at given
      cases given
  | opened link user connecting => exact tracked_opened ts r _ aged link user connecting
  | heard link user text live =>
      rw [(text_spares r.client text).link]
      exact tracked_kept ts r _ tracked fun other owner e _ => by simp
  | troubled link user e cached live => exact tracked_troubled ts r link user e live
  | lost link current => exact tracked_unlinked _ _ rfl
  | redialled link user url closing found =>
      refine tracked_dialling ts r.connection aged (r, _) user fun connecting => ?_
      rw [show r.connection.phase = _ from connecting] at closing
      cases closing

theorem start_status (c : Client) : c.start.1.link = c.link := by
  rw [Client.start]
  split <;> rfl

theorem status_tracks (endpoint : Endpoint) (room memory : Option String) (is : List Input) (w : Run)
    (waits : (new endpoint room memory).waiting? is = some w) :
    Tracked ((new endpoint room memory).handled is) w.client.link w.connection := by
  have kept := waiting_keeps (fun ts w => Reached w.connection ∧ Tracked ts w.client.link w.connection)
    endpoint room memory ?_ ?_ is w waits
  · exact kept.2.2.2
  · rw [start_client, start_connection, start_status]
    exact ⟨fun link current => (by cases current), tracked_unlinked [] _ rfl⟩
  · rintro ts r i next linked aged ⟨reached, tracked⟩ goes
    have move := next_moves r next linked i goes
    exact ⟨move_reached r i _ _ reached move, move_tracked ts r i _ _ aged reached tracked move⟩

def failedRetry : List Input :=
  [.command (.login "alice"), .report ⟨1, .opened⟩, .command .disconnect, .command (.login "bob"),
    .report ⟨1, .closed⟩, .report ⟨2, .error .closed⟩]

theorem failed_retry_tracked :
    ∃ w, (new {} none none).waiting? failedRetry = some w ∧
      w.connection.phase = .connecting 2 "bob" ∧ w.client.link = .offline ∧
      Tracked ((new {} none none).handled failedRetry) w.client.link w.connection := by
  have came : ((new {} none none).waiting? failedRetry).map
      (fun w => (w.connection.phase, w.client.link)) = some (.connecting 2 "bob", .offline) := by
    decide +kernel
  obtain ⟨w, waits, shown⟩ := Option.map_eq_some_iff.mp came
  exact ⟨w, waits, congrArg Prod.fst shown, congrArg Prod.snd shown,
    status_tracks {} none none failedRetry w waits⟩

end Run
end DarkDrop
