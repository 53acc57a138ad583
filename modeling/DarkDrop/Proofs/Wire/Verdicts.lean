import DarkDrop.Proofs.Wire.Envelopes

namespace DarkDrop.Wire
open Json

namespace ClientPayload

def parts : List (String × (Value → Prop)) :=
  [("session_id", Value.Nullable Value.IsText), ("column", Value.Nullable Value.IsCount),
    ("target_ids", Value.Nullable (Value.IsList Value.IsText))]

theorem described : List.Forall₂ Describes record.fields parts := by
  refine .cons ?_ (.cons ?_ (.cons ?_ .nil))
  · exact of_describes _ _ _ _ _ (optional_shapes _ _ text_shapes)
  · exact of_describes _ _ _ _ _ (optional_shapes _ _ (count_shapes _))
  · exact of_describes _ _ _ _ _ (optional_shapes _ _ (list_shapes _ _ text_shapes))

theorem shapes : Shapes form (Value.IsRecord parts) :=
  record_shapes record client_lawful.distinct parts described fun _ => ⟨_, rfl⟩

theorem holds_session : record.Holds "session_id" (·.sessionId) (.optional .text) := by
  refine holds_of _ _ _ _ (fun d x => { d with sessionId := some x }) rfl (fun _ _ => rfl) ?_
  simp only [record, List.forall_mem_cons]
  exact ⟨fun other => absurd rfl other, fun _ => of_keeps _ _ _ _ _ fun _ _ => rfl,
    fun _ => of_keeps _ _ _ _ _ fun _ _ => rfl, List.forall_mem_nil _⟩

theorem holds_column : record.Holds "column" (·.column) (.optional (.count "usize")) := by
  refine holds_of _ _ _ _ (fun d x => { d with column := some x }) rfl (fun _ _ => rfl) ?_
  simp only [record, List.forall_mem_cons]
  exact ⟨fun _ => of_keeps _ _ _ _ _ fun _ _ => rfl, fun other => absurd rfl other,
    fun _ => of_keeps _ _ _ _ _ fun _ _ => rfl, List.forall_mem_nil _⟩

end ClientPayload

def Lacks (data : Option Value) (field : String) : Prop :=
  ∀ w ms, data = some w → w.members? (ClientPayload.parts.map Prod.fst) = some ms →
    ∀ v, (field, v) ∈ ms → v = .scalar .null

theorem lacks_held {β : Type} (field : String) (get : ClientPayload.Draft → Option (Option β)) (form : Form β)
    (holds : ClientPayload.record.Holds field get form.optional) (blank : get ClientPayload.record.blank = none)
    (w : Value) (ms : List (String × Value)) (draft : ClientPayload.Draft)
    (found : w.members? (ClientPayload.parts.map Prod.fst) = some ms) (once : (ms.map Prod.fst).Nodup)
    (taken : Takes ClientPayload.record ClientPayload.record.blank ms draft) :
    (get draft).join = none ↔ Lacks (some w) field := by
  have held := takes_held _ field get form.optional holds _ draft ms taken once
  constructor
  · intro missing u us same found' v member
    cases same
    cases found.symm.trans found'
    obtain ⟨b, value, here⟩ := held v member
    rw [here, Option.join_some] at missing
    subst missing
    by_contra present
    rw [optional_present form v present] at value
    obtain ⟨_, _, same⟩ := map_eq_ok value
    cases same
  · intro lacks
    by_cases present : field ∈ ms.map Prod.fst
    · obtain ⟨⟨_, v⟩, member, rfl⟩ := List.mem_map.mp present
      obtain ⟨b, value, here⟩ := held v member
      cases lacks w ms rfl found v member
      cases value
      rw [here, Option.join_some]
    · rw [takes_kept _ field get form.optional holds _ draft ms taken present, blank]
      rfl

theorem request_lacks (data : Option Value) (sorted : ∀ w, data = some w → ∃ v : Value, w = v.sorted)
    (code : UInt64) (p : ClientPayload) (taken : payload ClientPayload.form code data = .ok p) :
    (p.sessionId = none ↔ Lacks data "session_id") ∧ (p.column = none ↔ Lacks data "column") := by
  cases data with
  | none =>
      cases taken
      exact ⟨⟨fun _ => nofun, fun _ => rfl⟩, fun _ => nofun, fun _ => rfl⟩
  | some w =>
      obtain ⟨v, rfl⟩ := sorted w rfl
      obtain ⟨ms, found, draft, gathered, whole⟩ :=
        (record_members _ client_lawful.distinct _ p).mp ((map_error_ok _ _ p).mp taken)
      have once := sorted_once _ (by decide) v ms found
      cases whole
      exact ⟨lacks_held _ _ _ ClientPayload.holds_session rfl _ ms draft found once gathered,
        lacks_held _ _ _ ClientPayload.holds_column rfl _ ms draft found once gathered⟩

def ServerNumber (n : UInt64) : Prop := 1 ≤ n ∧ n ≤ 8
def ClientNumber (n : UInt64) : Prop := 1 ≤ n ∧ n ≤ 6

def Requires (n : UInt64) (field : String) : Prop := (n = 1 ∧ field = "session_id") ∨ (n = 6 ∧ field = "column")

def Fitting (parts : List (String × (Value → Prop))) (data : Option Value) : Prop :=
  ∀ w, data = some w → w.IsRecord parts

inductive ServerVerdict (e : Envelope Value) : Except FrameError ServerMessage → Prop where
  | unknown (strange : ¬ ServerNumber e.code) : ServerVerdict e (.error (.unknownServerCode e.code))
  | invalid (cause : Cause) (known : ServerNumber e.code) (unfit : ¬ Fitting ServerPayload.parts e.data) :
      ServerVerdict e (.error (.invalidPayload e.code cause))
  | decoded (m : ServerMessage) (known : ServerNumber e.code) (fitting : Fitting ServerPayload.parts e.data)
      (same : m.code.toNumber = e.code) : ServerVerdict e (.ok m)

inductive ClientVerdict (e : Envelope Value) : Except FrameError ClientMessage → Prop where
  | unknown (strange : ¬ ClientNumber e.code) : ClientVerdict e (.error (.unknownClientCode e.code))
  | invalid (cause : Cause) (known : ClientNumber e.code) (unfit : ¬ Fitting ClientPayload.parts e.data) :
      ClientVerdict e (.error (.invalidPayload e.code cause))
  | missing (field : String) (fitting : Fitting ClientPayload.parts e.data) (required : Requires e.code field)
      (lacks : Lacks e.data field) : ClientVerdict e (.error (.missingField e.code field))
  | decoded (m : ClientMessage) (known : ClientNumber e.code) (fitting : Fitting ClientPayload.parts e.data)
      (given : ∀ field, Requires e.code field → ¬ Lacks e.data field) (same : m.code.toNumber = e.code) :
      ClientVerdict e (.ok m)

theorem client_code_known (n : UInt64) : (∃ code, ClientCode.ofNumber? n = some code) ↔ ClientNumber n := by
  constructor
  · rintro ⟨code, known⟩
    rw [← ClientCode.toNumber_of_ofNumber? known]
    cases code <;> exact ⟨by decide, by decide⟩
  · rintro ⟨least, greatest⟩
    have one : n = 1 ∨ n = 2 ∨ n = 3 ∨ n = 4 ∨ n = 5 ∨ n = 6 := by
      simp only [UInt64.le_iff_toNat_le, ← UInt64.toNat_inj] at *
      simp at *
      omega
    rcases one with rfl | rfl | rfl | rfl | rfl | rfl <;> exact ⟨_, rfl⟩

theorem payload_cases {π : Type} [Inhabited π] (form : Form π) (parts : List (String × (Value → Prop)))
    (shapes : Shapes form (Value.IsRecord parts)) (code : UInt64) (data : Option Value) :
    (Fitting parts data ∧ ∃ p, payload form code data = .ok p) ∨
      (¬ Fitting parts data ∧ ∃ cause, payload form code data = .error (.invalidPayload code cause)) := by
  cases data with
  | none => exact .inl ⟨by simp [Fitting], default, rfl⟩
  | some w =>
      have fits : Fitting parts (some w) ↔ w.IsRecord parts := by simp [Fitting]
      rw [fits, ← shapes w, payload]
      cases form.ofValue w with
      | ok p => exact .inl ⟨⟨p, rfl⟩, p, rfl⟩
      | error cause => exact .inr ⟨by simp, cause, rfl⟩

theorem server_parts_code (code : ServerCode) (message : Option String) (p : ServerPayload) :
    (ServerMessage.ofParts code message p).code = code := by
  cases code <;> rfl

theorem server_verdict (e : Envelope Value) : ServerVerdict e (ServerMessage.ofEnvelope e) := by
  rw [ServerMessage.ofEnvelope]
  cases found : ServerCode.ofNumber? e.code with
  | none =>
      refine .unknown fun known => ?_
      obtain ⟨code, here⟩ := (code_known e.code).mpr known
      cases found.symm.trans here
  | some code =>
      have known := (code_known e.code).mp ⟨code, found⟩
      obtain ⟨fitting, p, taken⟩ | ⟨unfit, cause, refused⟩ :=
        payload_cases ServerPayload.form _ ServerPayload.shapes e.code e.data
      · simp only [taken]
        refine .decoded _ known fitting ?_
        rw [server_parts_code, ServerCode.toNumber_of_ofNumber? found]
      · simp only [refused]
        exact .invalid cause known unfit

theorem requires_known (n : UInt64) (field : String) (required : Requires n field) : ClientNumber n := by
  rcases required with ⟨rfl, _⟩ | ⟨rfl, _⟩ <;> exact ⟨by decide, by decide⟩

theorem requires_alone (n : UInt64) (field other : String) (here : Requires n field) (there : Requires n other) :
    field = other := by
  rcases here with ⟨rfl, rfl⟩ | ⟨rfl, rfl⟩ <;> rcases there with ⟨same, rfl⟩ | ⟨same, rfl⟩ <;>
    first | rfl | cases same

theorem requires_code (code : ClientCode) (field : String) :
    Requires code.toNumber field ↔ (code = .joinSession ∧ field = "session_id") ∨ (code = .play ∧ field = "column") := by
  cases code <;> simp [Requires, ClientCode.toNumber]

theorem client_parts (code : ClientCode) (p : ClientPayload) :
    (∃ m, ClientMessage.ofParts code p = .ok m ∧ m.code = code ∧
      (code = .joinSession → p.sessionId ≠ none) ∧ (code = .play → p.column ≠ none)) ∨
    (code = .joinSession ∧ p.sessionId = none ∧ ClientMessage.ofParts code p = .error "session_id") ∨
    (code = .play ∧ p.column = none ∧ ClientMessage.ofParts code p = .error "column") := by
  obtain ⟨session, column, targets⟩ := p
  cases code with
  | joinSession => cases session <;> simp [ClientMessage.ofParts, ClientMessage.code]
  | play => cases column <;> simp [ClientMessage.ofParts, ClientMessage.code]
  | createSession | leaveSession | sessionRequest | startGame =>
      simp [ClientMessage.ofParts, ClientMessage.code]

theorem client_verdict (e : Envelope Value) (sorted : ∀ w, e.data = some w → ∃ v : Value, w = v.sorted) :
    ClientVerdict e (ClientMessage.ofEnvelope e) := by
  rw [ClientMessage.ofEnvelope]
  cases found : ClientCode.ofNumber? e.code with
  | none =>
      refine .unknown fun known => ?_
      obtain ⟨code, here⟩ := (client_code_known e.code).mpr known
      cases found.symm.trans here
  | some code =>
      have known := (client_code_known e.code).mp ⟨code, found⟩
      have number := ClientCode.toNumber_of_ofNumber? found
      obtain ⟨fitting, p, taken⟩ | ⟨unfit, cause, refused⟩ :=
        payload_cases ClientPayload.form _ ClientPayload.shapes e.code e.data
      · obtain ⟨session, column⟩ := request_lacks e.data sorted e.code p taken
        simp only [taken]
        obtain ⟨m, parts, same, joined, played⟩ | ⟨rfl, none, parts⟩ | ⟨rfl, none, parts⟩ := client_parts code p
        · change ClientVerdict e ((ClientMessage.ofParts code p).mapError _)
          rw [parts]
          refine .decoded m known fitting (fun field required => ?_) (by rw [same, number])
          rw [← number, requires_code] at required
          obtain ⟨here, rfl⟩ | ⟨here, rfl⟩ := required
          · exact fun lacks => joined here (session.mpr lacks)
          · exact fun lacks => played here (column.mpr lacks)
        · change ClientVerdict e ((ClientMessage.ofParts _ p).mapError _)
          rw [parts]
          exact .missing _ fitting (by rw [← number]; exact .inl ⟨rfl, rfl⟩) (session.mp none)
        · change ClientVerdict e ((ClientMessage.ofParts _ p).mapError _)
          rw [parts]
          exact .missing _ fitting (by rw [← number]; exact .inr ⟨rfl, rfl⟩) (column.mp none)
      · simp only [refused]
        exact .invalid cause known unfit

theorem envelops_sorted (text : String) (e : Envelope Value) (envelops : Envelops text e) (w : Value)
    (full : e.data = some w) : ∃ v : Value, w = v.sorted := by
  obtain ⟨ms, r, _, _, opens⟩ := envelops
  have given := opens.data
  rw [full] at given
  obtain ⟨v, _, _, same⟩ := given
  exact ⟨v, same⟩

theorem unopened_iff (text : String) :
    (∃ misfit, openEnvelope text = .error (.malformed misfit)) ↔ ∀ e, ¬ Envelops text e := by
  simp only [← open_envelope]
  constructor
  · rintro ⟨misfit, failed⟩ e opened
    cases failed.symm.trans opened
  · intro none
    cases opened : openEnvelope text with
    | ok e => exact absurd opened (none e)
    | error x =>
        obtain ⟨misfit, rfl⟩ := unopened text x opened
        exact ⟨misfit, rfl⟩

-- The errors of a text by their rank: the envelope, the code, the shape of the data, the field that a
-- request must have. An envelope is read in one way only, so exactly one of these is the case.
structure ServerRanks (text : String) : Prop where
  alone : ∀ e f, Envelops text e → Envelops text f → e = f
  malformed : (∃ misfit, ServerMessage.decode text = .error (.malformed misfit)) ↔ ∀ e, ¬ Envelops text e
  unknown : ∀ n, ServerMessage.decode text = .error (.unknownServerCode n) ↔
    ∃ e, Envelops text e ∧ e.code = n ∧ ¬ ServerNumber n
  invalid : ∀ n, (∃ cause, ServerMessage.decode text = .error (.invalidPayload n cause)) ↔
    ∃ e, Envelops text e ∧ e.code = n ∧ ServerNumber n ∧ ¬ Fitting ServerPayload.parts e.data
  decoded : ∀ n, (∃ m, ServerMessage.decode text = .ok m ∧ m.code.toNumber = n) ↔
    ∃ e, Envelops text e ∧ e.code = n ∧ ServerNumber n ∧ Fitting ServerPayload.parts e.data
  never : ∀ n field, ServerMessage.decode text ≠ .error (.unknownClientCode n) ∧
    ServerMessage.decode text ≠ .error (.missingField n field)

structure ClientRanks (text : String) : Prop where
  malformed : (∃ misfit, ClientMessage.decode text = .error (.malformed misfit)) ↔ ∀ e, ¬ Envelops text e
  unknown : ∀ n, ClientMessage.decode text = .error (.unknownClientCode n) ↔
    ∃ e, Envelops text e ∧ e.code = n ∧ ¬ ClientNumber n
  invalid : ∀ n, (∃ cause, ClientMessage.decode text = .error (.invalidPayload n cause)) ↔
    ∃ e, Envelops text e ∧ e.code = n ∧ ClientNumber n ∧ ¬ Fitting ClientPayload.parts e.data
  missing : ∀ n field, ClientMessage.decode text = .error (.missingField n field) ↔
    ∃ e, Envelops text e ∧ e.code = n ∧ Fitting ClientPayload.parts e.data ∧ Requires n field ∧ Lacks e.data field
  decoded : ∀ n, (∃ m, ClientMessage.decode text = .ok m ∧ m.code.toNumber = n) ↔
    ∃ e, Envelops text e ∧ e.code = n ∧ ClientNumber n ∧ Fitting ClientPayload.parts e.data ∧
      ∀ field, Requires n field → ¬ Lacks e.data field
  never : ∀ n, ClientMessage.decode text ≠ .error (.unknownServerCode n)

theorem envelops_alone (text : String) (e f : Envelope Value) (here : Envelops text e) (there : Envelops text f) :
    e = f := by
  rw [← open_envelope] at here there
  exact Except.ok.inj (here.symm.trans there)

theorem server_decode_cases (text : String) :
    ((∀ e, ¬ Envelops text e) ∧ ∃ misfit, ServerMessage.decode text = .error (.malformed misfit)) ∨
      ∃ e, Envelops text e ∧ (∀ f, Envelops text f → f = e) ∧ ServerVerdict e (ServerMessage.decode text) := by
  rw [ServerMessage.decode]
  cases opened : openEnvelope text with
  | error x =>
      obtain ⟨misfit, rfl⟩ := unopened text x opened
      exact .inl ⟨(unopened_iff text).mp ⟨misfit, opened⟩, misfit, rfl⟩
  | ok e =>
      have envelops := (open_envelope text e).mp opened
      exact .inr ⟨e, envelops, fun f other => envelops_alone text f e other envelops, server_verdict e⟩

theorem client_decode_cases (text : String) :
    ((∀ e, ¬ Envelops text e) ∧ ∃ misfit, ClientMessage.decode text = .error (.malformed misfit)) ∨
      ∃ e, Envelops text e ∧ (∀ f, Envelops text f → f = e) ∧ ClientVerdict e (ClientMessage.decode text) := by
  rw [ClientMessage.decode]
  cases opened : openEnvelope text with
  | error x =>
      obtain ⟨misfit, rfl⟩ := unopened text x opened
      exact .inl ⟨(unopened_iff text).mp ⟨misfit, opened⟩, misfit, rfl⟩
  | ok e =>
      have envelops := (open_envelope text e).mp opened
      exact .inr ⟨e, envelops, fun f other => envelops_alone text f e other envelops,
        client_verdict e (envelops_sorted text e envelops)⟩

theorem enveloped_iff (text : String) (e : Envelope Value) (envelops : Envelops text e)
    (alone : ∀ f, Envelops text f → f = e) (p : Envelope Value → Prop) :
    (∃ f, Envelops text f ∧ p f) ↔ p e := by
  constructor
  · rintro ⟨f, other, holds⟩
    rwa [alone f other] at holds
  · exact fun holds => ⟨e, envelops, holds⟩

theorem server_ranked (text : String) : ServerRanks text := by
  obtain ⟨none, misfit, failed⟩ | ⟨e, envelops, alone, verdict⟩ := server_decode_cases text
  · refine ⟨fun e _ here => absurd here (none e), ?_, ?_, ?_, ?_, ?_⟩
    all_goals simp [failed, none]
  · have one := enveloped_iff text e envelops alone
    have some : ¬ ∀ f, ¬ Envelops text f := fun none => none e envelops
    generalize decoded : ServerMessage.decode text = result at verdict
    refine ⟨envelops_alone text, ?_, fun n => ?_, fun n => ?_, fun n => ?_, fun n field => ?_⟩
    all_goals rw [decoded]
    · cases verdict <;> simp [some]
    · rw [one]
      cases verdict <;> grind
    · rw [one]
      cases verdict with
      | unknown strange => grind
      | invalid cause known unfit => simp only [Except.error.injEq, FrameError.invalidPayload.injEq]; grind
      | decoded m known fitting same => grind
    · rw [one]
      cases verdict with
      | unknown strange => grind
      | invalid cause known unfit => grind
      | decoded m known fitting same => simp only [Except.ok.injEq]; grind
    · cases verdict <;> simp

theorem client_ranked (text : String) : ClientRanks text := by
  obtain ⟨none, misfit, failed⟩ | ⟨e, envelops, alone, verdict⟩ := client_decode_cases text
  · refine ⟨?_, ?_, ?_, ?_, ?_, ?_⟩
    all_goals simp [failed, none]
  · have one := enveloped_iff text e envelops alone
    have some : ¬ ∀ f, ¬ Envelops text f := fun none => none e envelops
    have known := requires_known
    have apart := requires_alone
    generalize decoded : ClientMessage.decode text = result at verdict
    refine ⟨?_, fun n => ?_, fun n => ?_, fun n field => ?_, fun n => ?_, fun n => ?_⟩
    all_goals rw [decoded]
    · cases verdict <;> simp [some]
    · rw [one]
      cases verdict <;> grind
    · rw [one]
      cases verdict with
      | unknown strange => grind
      | invalid cause known unfit => simp only [Except.error.injEq, FrameError.invalidPayload.injEq]; grind
      | missing field fitting required lacks => grind
      | decoded m known fitting given same => grind
    · rw [one]
      cases verdict <;> grind
    · rw [one]
      cases verdict with
      | unknown strange => grind
      | invalid cause known unfit => grind
      | missing field fitting required lacks => grind
      | decoded m known fitting given same => simp only [Except.ok.injEq]; grind
    · cases verdict <;> simp

theorem errors_ranked (text : String) : ServerRanks text ∧ ClientRanks text :=
  ⟨server_ranked text, client_ranked text⟩

-- A code that is unknown only as a whole: its lowest byte would be one, and the data fits neither.
example : ServerMessage.decode "\x7b\"event_code\":257,\"data\":5\x7d" = .error (.unknownServerCode 257) := by
  decide +kernel

end DarkDrop.Wire
