import DarkDrop.Proofs.Play.Drain

namespace DarkDrop

def Effect.outward : Effect → Bool
  | .render | .quit | .notify _ | .cacheUser _ | .clearCachedUser => false
  | _ => true

def Effect.remark : Effect → Bool
  | .render | .notify _ | .clearCachedUser => true
  | _ => false

def Effect.dials : Effect → Bool
  | .connect _ => true
  | _ => false

def Effect.joins : Effect → Bool
  | .joinSession _ => true
  | _ => false

def Signal.prompt : Signal → Bool
  | .connecting | .connectionFailed _ | .rejected _ => true
  | _ => false

def backlog (es : List Effect) : Nat := es.length + 4 * es.countP Effect.dials + 2 * es.countP Effect.joins

theorem remark_shown (c : Client) (e : Effect) (remark : e.remark = true) :
    (e.deed? c).isSome = true ∧ e.outward = false ∧ e.dials = false ∧ e.joins = false := by
  cases e with
  | render | notify | clearCachedUser => exact ⟨rfl, rfl, rfl, rfl⟩
  | _ => cases remark

theorem outward_iff (c : Client) (e : Effect) : e.outward = true ↔ e.deed? c = none ∧ e ≠ .quit := by
  cases e <;> simp [Effect.outward, Effect.deed?]

theorem performed_prompt (k : Connection) (e : Effect) : ∀ s ∈ (k.perform e).signals, s.prompt = true := by
  cases e with
  | connect user =>
      rcases k.notices_connect user with silent | ⟨x, failed⟩
      · simp [Connection.perform, silent, Signal.prompt]
      · simp [Connection.perform, failed, Signal.ofNotice, Signal.prompt]
  | joinSession room =>
      rw [Connection.perform]
      split <;> simp [Signal.prompt]
  | _ => simp [Connection.perform]

theorem prompt_remarks (c : Client) (s : Signal) (prompt : s.prompt = true) :
    ∀ e ∈ (c.hear s).2, e.remark = true := by
  cases s with
  | connecting => simp [Client.hear, Effect.remark]
  | connectionFailed reason =>
      by_cases quick : c.screen = .quickJoin <;> simp [Client.hear, quick, Effect.remark]
  | rejected reason => simp [Client.hear, Effect.remark]
  | connected | disconnected | server | undecodable => cases prompt

theorem prompt_all_remarks (c : Client) (ss : List Signal) (prompt : ∀ s ∈ ss, s.prompt = true) :
    ∀ e ∈ (c.hearAll ss).2, e.remark = true := by
  induction ss generalizing c with
  | nil => simp [Client.hearAll]
  | cons s ss ih =>
      intro e member
      rw [Client.hearAll, List.mem_append] at member
      rcases member with now | later
      · exact prompt_remarks c s (prompt s (by simp)) e now
      · exact ih (c.hear s).1 (fun t held => prompt t (by simp [held])) e later

theorem answers_counted (c : Client) (k : Connection) (e : Effect) :
    (c.hearAll (k.perform e).signals).2.length ≤ 4 * [e].countP Effect.dials + 2 * [e].countP Effect.joins := by
  cases e with
  | connect user =>
      rcases k.notices_connect user with silent | ⟨x, failed⟩
      · simp [Connection.perform, silent, Client.hearAll, Client.hear, Effect.dials, Effect.joins]
      · by_cases quick : c.screen = .quickJoin <;>
          simp [Connection.perform, failed, Signal.ofNotice, Client.hearAll, Client.hear, quick, Effect.dials,
            Effect.joins]
  | joinSession room =>
      rw [Connection.perform]
      split <;> simp [Client.hearAll, Client.hear, Effect.joins]
  | _ => simp [Connection.perform, Client.hearAll]

theorem backlog_step (e : Effect) (es answers : List Effect) (remarks : ∀ d ∈ answers, d.remark = true)
    (few : answers.length ≤ 4 * [e].countP Effect.dials + 2 * [e].countP Effect.joins) :
    backlog (es ++ answers) + 1 ≤ backlog (e :: es) := by
  have dials : answers.countP Effect.dials = 0 :=
    List.countP_eq_zero.mpr fun d member => by simp [remark_shown {} d (remarks d member)]
  have joins : answers.countP Effect.joins = 0 :=
    List.countP_eq_zero.mpr fun d member => by simp [remark_shown {} d (remarks d member)]
  rw [backlog, backlog, List.length_append, List.countP_append, List.countP_append, dials, joins,
    ← List.singleton_append, List.length_append, List.countP_append, List.countP_append, List.length_singleton]
  omega

namespace Run

-- The effects that a run takes from its queue, one after another, and what it
-- comes to. What an effect leads to is put at the end of the queue.
inductive Takes (refusal : Refusal) : Run → List Effect → List Effect → Run × Progress → Prop where
  | done (r : Run) : Takes refusal r [] [] (r, .going)
  | refused (r : Run) (e : Effect) (es : List Effect) (d : Deed) (reason : String)
      (shown : e.deed? r.client = some d) (fails : refusal (r.did d).log = some reason) :
      Takes refusal r (e :: es) [e] (r.did d, .failed reason)
  | shown (r : Run) (e : Effect) (es taken : List Effect) (d : Deed) (out : Run × Progress)
      (shown : e.deed? r.client = some d) (works : refusal (r.did d).log = none)
      (rest : Takes refusal (r.did d) es taken out) : Takes refusal r (e :: es) (e :: taken) out
  | ended (r : Run) (es : List Effect) : Takes refusal r (.quit :: es) [.quit] (r, .ended)
  | performed (r : Run) (e : Effect) (es taken : List Effect) (out : Run × Progress)
      (outward : e.outward = true) (rest : Takes refusal (r.perform e).1 (es ++ (r.perform e).2) taken out) :
      Takes refusal r (e :: es) (e :: taken) out

variable (refusal : Refusal) (r : Run) (es : List Effect)

theorem performed_remarks (e : Effect) : ∀ d ∈ (r.perform e).2, d.remark = true :=
  prompt_all_remarks r.client _ (performed_prompt r.connection e)

theorem drain_takes : ∃ taken, Takes refusal r es taken (r.drain refusal es) := by
  fun_induction drain refusal r es with
  | case1 r => exact ⟨[], .done r⟩
  | case2 r e es d shown reason fails => exact ⟨[e], .refused r e es d reason shown fails⟩
  | case3 r e es d shown works ih =>
      obtain ⟨taken, rest⟩ := ih
      exact ⟨e :: taken, .shown r e es taken d _ shown works rest⟩
  | case4 r es unshown => exact ⟨[.quit], .ended r es⟩
  | case5 r e es unshown stays ih =>
      obtain ⟨taken, rest⟩ := ih
      exact ⟨e :: taken, .performed r e es taken _ ((outward_iff r.client e).mpr ⟨unshown, stays⟩) rest⟩

theorem takes_bounded (taken : List Effect) (out : Run × Progress) (takes : Takes refusal r es taken out) :
    taken.length ≤ backlog es := by
  induction takes with
  | done r => exact Nat.zero_le _
  | refused r e es d reason shown fails =>
      rw [backlog, List.length_singleton, List.length_cons]
      omega
  | shown r e es taken d out shown works rest ih =>
      have step := backlog_step e es [] (by simp) (Nat.zero_le _)
      rw [List.append_nil] at step
      exact Nat.le_trans (Nat.succ_le_succ ih) step
  | ended r es =>
      rw [backlog, List.length_singleton, List.length_cons]
      omega
  | performed r e es taken out outward rest ih =>
      have step := backlog_step e es _ (performed_remarks r e) (answers_counted r.client r.connection e)
      exact Nat.le_trans (Nat.succ_le_succ ih) step

theorem takes_outward (taken : List Effect) (out : Run × Progress) (takes : Takes refusal r es taken out) :
    taken.filter Effect.outward <+: es.filter Effect.outward := by
  induction takes with
  | done r => exact List.prefix_rfl
  | refused r e es d reason shown fails =>
      have inward : e.outward = false := by
        simpa [shown] using outward_iff r.client e
      simp [inward]
  | shown r e es taken d out shown works rest ih =>
      have inward : e.outward = false := by
        simpa [shown] using outward_iff r.client e
      simpa [inward] using ih
  | ended r es => simp [Effect.outward]
  | performed r e es taken out outward rest ih =>
      have none : (r.perform e).2.filter Effect.outward = [] :=
        List.filter_eq_nil_iff.mpr fun d member => by simp [remark_shown {} d (performed_remarks r e d member)]
      rw [List.filter_append, none, List.append_nil] at ih
      rw [List.filter_cons_of_pos outward, List.filter_cons_of_pos outward]
      exact (List.prefix_cons_inj e).mpr ih

theorem takes_drained (taken : List Effect) (out : Run × Progress) (takes : Takes refusal r es taken out) :
    out = r.drain refusal es := by
  induction takes with
  | done r => rw [drain]
  | refused r e es d reason shown fails =>
      rw [drain]
      simp only [shown, fails]
  | shown r e es taken d out shown works rest ih =>
      rw [ih, drain]
      simp only [shown, works]
  | ended r es =>
      rw [drain]
      rfl
  | performed r e es taken out outward rest ih =>
      obtain ⟨unshown, stays⟩ := (outward_iff r.client e).mp outward
      rw [ih, drain]
      simp only [unshown, if_neg stays]

-- A queue is empty, or given up, after no more effects than the backlog. What is
-- called on the connection was there from the beginning.
structure Drained : Prop where
  prompt : ∀ e, ∀ s ∈ (r.connection.perform e).signals, s.prompt = true
  remarks : ∀ s, s.prompt = true → ∀ e ∈ (r.client.hear s).2, e.remark = true
  inward : ∀ e : Effect, e.remark = true → (e.deed? r.client).isSome = true ∧ e.outward = false
  ends : ∃ taken, Takes refusal r es taken (r.drain refusal es)
  bounded : ∀ taken out, Takes refusal r es taken out → out = r.drain refusal es ∧
    taken.length ≤ backlog es ∧ taken.filter Effect.outward <+: es.filter Effect.outward

theorem queue_drained : Drained refusal r es := by
  refine ⟨performed_prompt r.connection, prompt_remarks r.client, ?_, drain_takes refusal r es, ?_⟩
  · intro e remark
    obtain ⟨shown, inward, _⟩ := remark_shown r.client e remark
    exact ⟨shown, inward⟩
  · intro taken out takes
    exact ⟨takes_drained refusal r es taken out takes, takes_bounded refusal r es taken out takes,
      takes_outward refusal r es taken out takes⟩

example : (steps (new {} (some "ZZ9PL") none) [.connect "", .joinSession "AB"]).length =
    backlog [.connect "", .joinSession "AB"] := by
  decide +kernel

end Run
end DarkDrop
