import DarkDrop.Proofs.Link.Calls

namespace DarkDrop
open Wire

namespace Endpoint

theorem url_nameless (e : Endpoint) : e.url "" = .error (.invalidEndpoint "user id is empty") := rfl

theorem url_unusable (e : Endpoint) (x : LinkError) (unusable : e.base = .error x) (user : String) :
    ∃ y, e.url user = .error y := by
  rw [url]
  split
  · exact ⟨_, rfl⟩
  · exact ⟨x, by rw [unusable]; rfl⟩

end Endpoint

namespace Connection

theorem refused_stays (c : Connection) (user : String) (e : LinkError)
    (unreached : c.endpoint.url user = .error e) : c.connect user = ⟨c, [.error e], []⟩ := by
  simp only [connect, unreached]

theorem refused_unnoticed (c : Connection) (user : String) (e : LinkError)
    (unreached : c.endpoint.url user = .error e) (later : List Call) :
    c.after (.connect user :: later) = c.after later ∧
      c.orders (.connect user :: later) = c.orders later := by
  have stays : c.call (.connect user) = ⟨c, [.error e], []⟩ := refused_stays c user e unreached
  constructor
  · rw [after, List.foldl_cons, stays]
    rfl
  · rw [orders, outcomes, List.flatMap_cons, stays]
    rfl

-- A user that waits for the link to close still has the URL that let it wait.
theorem promise_kept (c : Connection) (sound : c.Sound) (link : LinkId) (user : String)
    (closing : c.phase = .disconnecting link (some user)) :
    ∃ url, c.endpoint.url user = .ok url ∧
      c.receive ⟨link, .closed⟩ = ⟨c.dialling user, [.closed], [.open c.next url]⟩ := by
  obtain ⟨url, reached⟩ := sound.waiting link user closing
  have current := closing_link c link (some user) closing
  refine ⟨url, reached, ?_⟩
  simp [receive, current, onClosed, closing, openLink, reached, dialling]

theorem closed_untroubled (c : Connection) (sound : c.Sound) (link : LinkId) (e : LinkError) :
    .error e ∉ (c.receive ⟨link, .closed⟩).notices := by
  have move := receive_moves c sound ⟨link, .closed⟩
  generalize c.receive ⟨link, .closed⟩ = outcome at move
  cases move with
  | heard _ _ _ _ told => simp [LinkEvent.notice?] at told
  | lost | ended | redialled => simp
  | sent | ignored => simp

structure Steady (endpoint : Endpoint) (calls : List Call) : Prop where
  refused : ∀ user e, endpoint.url user = .error e →
    ((new endpoint).after calls).connect user = ⟨(new endpoint).after calls, [.error e], []⟩
  unnoticed : ∀ user e, endpoint.url user = .error e → ∀ later,
    (new endpoint).after (calls ++ .connect user :: later) = (new endpoint).after (calls ++ later) ∧
      (new endpoint).orders (calls ++ .connect user :: later) = (new endpoint).orders (calls ++ later)
  nameless : ∃ e, endpoint.url "" = .error e
  unusable : ∀ x, endpoint.base = .error x → ∀ user, ∃ e, endpoint.url user = .error e
  redials : ∀ link user, ((new endpoint).after calls).phase = .disconnecting link (some user) →
    ∃ url, endpoint.url user = .ok url ∧
      ((new endpoint).after calls).receive ⟨link, .closed⟩ =
        ⟨((new endpoint).after calls).dialling user, [.closed],
          [.open ((new endpoint).after calls).next url]⟩
  untroubled : ∀ link e, .error e ∉ (((new endpoint).after calls).receive ⟨link, .closed⟩).notices

theorem refusals_and_redials (endpoint : Endpoint) (calls : List Call) : Steady endpoint calls := by
  have sound := after_sound _ (new_sound endpoint) calls
  have here : ((new endpoint).after calls).endpoint = endpoint :=
    after_endpoint _ (new_sound endpoint) calls
  refine ⟨?_, ?_, ⟨_, endpoint.url_nameless⟩, endpoint.url_unusable, ?_, closed_untroubled _ sound⟩
  · intro user e unreached
    exact refused_stays _ user e (by rw [here, unreached])
  · intro user e unreached later
    obtain ⟨connection, orders⟩ := refused_unnoticed _ user e (by rw [here, unreached]) later
    rw [after_append, after_append, orders_append, orders_append, connection, orders]
    exact ⟨rfl, rfl⟩
  · intro link user closing
    obtain ⟨url, reached, redialled⟩ := promise_kept _ sound link user closing
    exact ⟨url, by rw [← here, reached], redialled⟩

theorem waiting_bob_redials :
    let calls : List Call := [.connect "alice", .receive ⟨1, .opened⟩, .connect "bob", .connect ""]
    let waiting := (new {}).after calls
    waiting.phase = .disconnecting 1 (some "bob") ∧
      waiting = (new {}).after [.connect "alice", .receive ⟨1, .opened⟩, .connect "bob"] ∧
      (waiting.receive ⟨1, .closed⟩).connection.phase = .connecting 2 "bob" := by
  intro calls waiting
  have closing : waiting.phase = .disconnecting 1 (some "bob") := by decide +kernel
  obtain ⟨url, _, redialled⟩ := (refusals_and_redials {} calls).redials 1 "bob" closing
  have earlier := refusals_and_redials {} [.connect "alice", .receive ⟨1, .opened⟩, .connect "bob"]
  refine ⟨closing, (earlier.unnoticed "" _ rfl []).1, ?_⟩
  rw [redialled]
  have second : waiting.next = 2 := by decide +kernel
  rw [← second]
  rfl

end Connection
end DarkDrop
