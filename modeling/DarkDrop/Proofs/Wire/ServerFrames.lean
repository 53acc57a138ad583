import DarkDrop.Proofs.Json.Shape
import DarkDrop.Proofs.Json.Skippable
import DarkDrop.Proofs.Wire.TwoReaders

namespace DarkDrop.Wire
open Json

namespace Snapshot

def parts : List (String × (Value → Prop)) :=
  [("turn_index", Value.IsCount), ("player_order", Value.IsList Value.IsText),
    ("play_indexes", Value.IsList (Value.IsList Value.IsCount))]

theorem shapes : Shapes form (Value.IsRecord parts) := by
  refine record_shapes record snapshot_lawful.distinct parts ?_ fun _ => ⟨_, rfl⟩
  refine .cons ?_ (.cons ?_ (.cons ?_ .nil))
  · exact of_describes _ _ _ _ _ (count_shapes _)
  · exact of_describes _ _ _ _ _ (list_shapes _ _ text_shapes)
  · exact of_describes _ _ _ _ _ (list_shapes _ _ (list_shapes _ _ (count_shapes _)))

theorem stable : Stable (Value.IsRecord parts) := by
  refine record_stable parts ?_
  simp only [parts, List.forall_mem_cons]
  exact ⟨count_stable, list_stable _ text_stable, list_stable _ (list_stable _ count_stable), List.forall_mem_nil _⟩

end Snapshot

namespace ServerPayload

def parts : List (String × (Value → Prop)) :=
  [("session_id", Value.Nullable Value.IsText), ("client_id", Value.Nullable Value.IsText),
    ("session_client_ids", Value.Nullable (Value.IsList Value.IsText)),
    ("game_data", Value.Nullable (Value.IsRecord Snapshot.parts))]

theorem shapes : Shapes form (Value.IsRecord parts) := by
  refine record_shapes record server_lawful.distinct parts ?_ fun _ => ⟨_, rfl⟩
  refine .cons ?_ (.cons ?_ (.cons ?_ (.cons ?_ .nil)))
  · exact of_describes _ _ _ _ _ (optional_shapes _ _ text_shapes)
  · exact of_describes _ _ _ _ _ (optional_shapes _ _ text_shapes)
  · exact of_describes _ _ _ _ _ (optional_shapes _ _ (list_shapes _ _ text_shapes))
  · exact of_describes _ _ _ _ _ (optional_shapes _ _ Snapshot.shapes)

theorem stable : Stable (Value.IsRecord parts) := by
  refine record_stable parts ?_
  simp only [parts, List.forall_mem_cons]
  exact ⟨nullable_stable _ text_stable, nullable_stable _ text_stable,
    nullable_stable _ (list_stable _ text_stable), nullable_stable _ Snapshot.stable, List.forall_mem_nil _⟩

end ServerPayload

def IsServerCode (v : Value) : Prop := ∃ n : UInt64, v = .ofNat n ∧ 1 ≤ n ∧ n ≤ 8

def serverParts : List (String × (Value → Prop)) :=
  [("event_code", IsServerCode), ("message", Value.Nullable Value.IsText),
    ("data", Value.Nullable (Value.IsRecord ServerPayload.parts))]

def IsServerFrame (v : Value) : Prop :=
  ∃ ms, v.members? (serverParts.map Prod.fst) = some ms ∧ Value.Fits serverParts ms ∧
    "event_code" ∈ ms.map Prod.fst

theorem code_known (n : UInt64) : (∃ code, ServerCode.ofNumber? n = some code) ↔ 1 ≤ n ∧ n ≤ 8 := by
  constructor
  · rintro ⟨code, known⟩
    rw [← ServerCode.toNumber_of_ofNumber? known]
    cases code <;> decide
  · rintro ⟨least, greatest⟩
    have one : n = 1 ∨ n = 2 ∨ n = 3 ∨ n = 4 ∨ n = 5 ∨ n = 6 ∨ n = 7 ∨ n = 8 := by
      simp only [UInt64.le_iff_toNat_le, ← UInt64.toNat_inj] at *
      simp at *
      omega
    rcases one with rfl | rfl | rfl | rfl | rfl | rfl | rfl | rfl <;> exact ⟨_, rfl⟩

theorem server_frame_stable : Stable IsServerFrame := by
  intro v once
  have parts : ∀ part ∈ serverParts, Stable part.2 := by
    simp only [serverParts, List.forall_mem_cons]
    refine ⟨fun w _ => ?_, nullable_stable _ text_stable, nullable_stable _ ServerPayload.stable, List.forall_mem_nil _⟩
    cases w <;> simp [Value.sorted, IsServerCode, Value.ofNat]
  rw [IsServerFrame, IsServerFrame]
  cases found : v.members? (serverParts.map Prod.fst) with
  | none => rw [sorted_unfound _ v found]
  | some ms =>
      obtain ⟨us, sorted, same⟩ := sorted_found _ v once ms found
      have fits := fits_stable serverParts parts ms us (found_once _ v once ms found) same
      have names := (same.map Prod.fst).mem_iff (a := "event_code")
      rw [sorted_names] at names
      rw [sorted]
      simp only [Option.some.injEq, exists_eq_left', fits, names]

namespace Envelope

theorem distinct {δ : Type} (data : Form δ) : (record data).Distinct := by
  refine ⟨?_, ?_, ?_⟩
  · simp only [record, List.forall_mem_cons]
    exact ⟨rfl, rfl, rfl, List.forall_mem_nil _⟩
  · simp only [record, List.forall_mem_cons]
    refine ⟨?_, ?_, ?_, List.forall_mem_nil _⟩
    all_goals exact of_fills _ _ _ _ fun _ _ => rfl
  · simp only [record, List.pairwise_cons, List.forall_mem_cons]
    refine ⟨⟨?_, ?_, List.forall_mem_nil _⟩, ⟨?_, List.forall_mem_nil _⟩, List.forall_mem_nil _, .nil⟩
    all_goals exact of_apart _ _ _ _ _ _ _ _ (by decide) (fun _ _ => rfl) (fun _ _ => rfl) fun _ _ _ => rfl

theorem any_follows (d : Nat) : FollowsAt d (Form.any d).read (Form.any d).ofValue := by
  refine ⟨fun s r rest v a written read => ?_, fun s r v a written _ taken => ?_⟩
  · obtain ⟨w, same, rfl⟩ := (any_as_written d s rest a).mp read
    rw [written] at same
    cases same
    exact ⟨rfl, rfl⟩
  · cases taken
    exact (any_as_written d s r _).mpr ⟨v, written, rfl⟩

theorem follows (d : Nat) : FollowsAt (d + 1) (form (.any d)).read (form (.any d)).ofValue := by
  refine record_follows_at (record (.any d)) (distinct _) (d + 1) fun e same => ?_
  cases same
  simp only [Record.FollowsAt, record, List.forall_mem_cons]
  exact ⟨of_follows_at _ _ _ _ d ((count_follows _).to d),
    of_follows_at _ _ _ _ d ((optional_follows .text text_follows).to d),
    of_follows_at _ _ _ _ d (optional_follows_at d (.any d) (any_follows d)), List.forall_mem_nil _⟩

theorem skippable (d : Nat) : Skippable (form (.any d)).read := by
  refine record_skippable (record (.any d)) ?_
  simp only [record, List.forall_mem_cons]
  exact ⟨fun _ => map_skippable _ _ (scalar_skippable _ _),
    fun _ => map_skippable _ _ (optional_skippable .text (scalar_skippable _ _)),
    fun _ => map_skippable _ _ (optional_skippable (.any d) (any_skippable d)), List.forall_mem_nil _⟩

theorem holds_code {δ : Type} (data : Form δ) : (record data).Holds "event_code" (·.code) (.count "u64") := by
  refine holds_of _ _ _ _ (fun d x => { d with code := some x }) rfl (fun _ _ => rfl) ?_
  simp only [record, List.forall_mem_cons]
  exact ⟨fun other => absurd rfl other, fun _ => of_keeps _ _ _ _ _ fun _ _ => rfl,
    fun _ => of_keeps _ _ _ _ _ fun _ _ => rfl, List.forall_mem_nil _⟩

theorem holds_data {δ : Type} (data : Form δ) : (record data).Holds "data" (·.data) (.optional data) := by
  refine holds_of _ _ _ _ (fun d x => { d with data := some x }) rfl (fun _ _ => rfl) ?_
  simp only [record, List.forall_mem_cons]
  exact ⟨fun _ => of_keeps _ _ _ _ _ fun _ _ => rfl, fun _ => of_keeps _ _ _ _ _ fun _ _ => rfl,
    fun other => absurd rfl other, List.forall_mem_nil _⟩

def anyParts : List (String × (Value → Prop)) :=
  [("event_code", Value.IsCount), ("message", Value.Nullable Value.IsText),
    ("data", Value.Nullable fun _ => True)]

theorem any_described (d : Nat) : List.Forall₂ Describes (record (.any d)).fields anyParts := by
  refine .cons ?_ (.cons ?_ (.cons ?_ .nil))
  · exact of_describes _ _ _ _ _ (count_shapes _)
  · exact of_describes _ _ _ _ _ (optional_shapes _ _ text_shapes)
  · exact of_describes _ _ _ _ _ (optional_shapes _ _ (any_shapes d))

end Envelope

theorem payload_fits (d : Nat) (code : UInt64) (w : Value) (a : Option Value)
    (value : (Form.any d).optional.ofValue w = .ok a) :
    (∃ p, payload ServerPayload.form code a = .ok p) ↔
      Value.Nullable (Value.IsRecord ServerPayload.parts) w := by
  by_cases null : w = .scalar .null
  · subst null
    cases value
    exact ⟨fun _ => .inl rfl, fun _ => ⟨default, rfl⟩⟩
  · rw [optional_present _ w null] at value
    cases value
    simp only [payload, map_error_ok, Value.Nullable, null, false_or]
    exact ServerPayload.shapes w

section

variable (d : Nat) (us : List (String × Value)) (once : (us.map Prod.fst).Nodup)
  (draft : Envelope.Draft Value)
  (taken : Takes (Envelope.record (.any d)) (Envelope.record (.any d)).blank us draft)
include once taken

theorem code_fits :
    (∃ n code, draft.code = some n ∧ ServerCode.ofNumber? n = some code) ↔
      "event_code" ∈ us.map Prod.fst ∧ ∀ w, ("event_code", w) ∈ us → IsServerCode w := by
  have held := takes_held _ _ _ _ (Envelope.holds_code (.any d)) _ draft us taken once
  constructor
  · rintro ⟨n, code, numbered, known⟩
    refine ⟨?_, fun w member => ?_⟩
    · by_contra absent
      cases numbered.symm.trans (takes_kept _ _ _ _ (Envelope.holds_code (.any d)) _ draft us taken absent)
    · obtain ⟨m, value, here⟩ := held w member
      cases numbered.symm.trans here
      exact ⟨n, (count_value _ w n).mp value, (code_known n).mp ⟨code, known⟩⟩
  · rintro ⟨present, each⟩
    obtain ⟨⟨_, w⟩, member, rfl⟩ := List.mem_map.mp present
    obtain ⟨n, value, numbered⟩ := held w member
    obtain ⟨m, same, bounds⟩ := each w member
    cases ((count_value _ w n).mp value).symm.trans same
    obtain ⟨code, known⟩ := (code_known n).mpr bounds
    exact ⟨n, code, numbered, known⟩

theorem data_fits (code : UInt64) :
    (∃ p, payload ServerPayload.form code draft.data.join = .ok p) ↔
      ∀ w, ("data", w) ∈ us → Value.Nullable (Value.IsRecord ServerPayload.parts) w := by
  have held := takes_held _ _ _ _ (Envelope.holds_data (.any d)) _ draft us taken once
  constructor
  · rintro ⟨p, fits⟩ w member
    obtain ⟨a, value, here⟩ := held w member
    rw [here, Option.join_some] at fits
    exact (payload_fits d code w a value).mp ⟨p, fits⟩
  · intro each
    by_cases present : "data" ∈ us.map Prod.fst
    · obtain ⟨⟨_, w⟩, member, rfl⟩ := List.mem_map.mp present
      obtain ⟨a, value, here⟩ := held w member
      rw [here, Option.join_some]
      exact (payload_fits d code w a value).mpr (each w member)
    · rw [takes_kept _ _ _ _ (Envelope.holds_data (.any d)) _ draft us taken present]
      exact ⟨default, rfl⟩

end

theorem frame_value (d : Nat) (u : Value) (us : List (String × Value))
    (found : u.members? (serverParts.map Prod.fst) = some us) (once : (us.map Prod.fst).Nodup) :
    (∃ e code p, (Envelope.form (.any d)).ofValue u = .ok e ∧ ServerCode.ofNumber? e.code = some code ∧
      payload ServerPayload.form e.code e.data = .ok p) ↔
      Value.Fits serverParts us ∧ "event_code" ∈ us.map Prod.fst := by
  have distinct := Envelope.distinct (.any d)
  have members := record_members _ distinct u
  have shape := takes_fit _ distinct _ (Envelope.any_described d) (Envelope.record (.any d)).blank us
  simp only [Value.Fits, serverParts, Envelope.anyParts, List.forall_mem_cons] at shape ⊢
  constructor
  · rintro ⟨e, code, p, value, known, good⟩
    obtain ⟨_, same, draft, taken, whole⟩ := (members e).mp value
    cases found.symm.trans same
    obtain ⟨n, numbered, rfl⟩ := (Envelope.complete_whole _ draft e).mp whole
    obtain ⟨present, codes⟩ := (code_fits d us once draft taken).mp ⟨n, code, numbered, known⟩
    obtain ⟨_, messages, _⟩ := shape.mp ⟨draft, taken⟩
    exact ⟨⟨codes, messages, (data_fits d us once draft taken n).mp ⟨p, good⟩, List.forall_mem_nil _⟩, present⟩
  · rintro ⟨⟨codes, messages, data, _⟩, present⟩
    have counts : ∀ w, ("event_code", w) ∈ us → Value.IsCount w := fun w member => by
      obtain ⟨n, same, _⟩ := codes w member
      exact ⟨n, same⟩
    obtain ⟨draft, taken⟩ := shape.mpr ⟨counts, messages, fun _ _ => .inr trivial, List.forall_mem_nil _⟩
    obtain ⟨n, code, numbered, known⟩ := (code_fits d us once draft taken).mpr ⟨present, codes⟩
    obtain ⟨p, good⟩ := (data_fits d us once draft taken n).mpr data
    have whole := (Envelope.complete_whole (.any d) draft _).mpr ⟨n, numbered, rfl⟩
    exact ⟨_, code, p, (members _).mpr ⟨us, found, draft, taken, whole⟩, known, good⟩

def whole (text : String) : Except Misfit Value := (asWritten maxDepth).readAll text.toList

-- The texts that can be kept and give no two members of an object one name, and those that are no
-- JSON: a text that is too deep, or has a number too large or a broken string, can only be skipped.
def Regular (text : String) : Prop :=
  (∃ v, whole text = .ok v ∧ ¬ v.Repeats) ∨ ∃ misfit, skip.readAll text.toList = .error misfit

instance decidableOk {ε α : Type} (p : α → Prop) [DecidablePred p] (x : Except ε α) : Decidable (∃ a, x = .ok a ∧ p a) :=
  match x with
  | .ok a => decidable_of_iff (p a) (by simp)
  | .error _ => .isFalse (by simp)

instance decidableError {ε α : Type} (x : Except ε α) : Decidable (∃ e, x = .error e) :=
  match x with
  | .ok _ => .isFalse (by simp)
  | .error e => .isTrue ⟨e, rfl⟩

instance (text : String) : Decidable (Regular text) := inferInstanceAs (Decidable (_ ∨ _))

theorem opened_value (text : String) (v : Value) (read : whole text = .ok v) (once : ¬ v.Repeats)
    (e : Envelope Value) :
    openEnvelope text = .ok e ↔ (Envelope.form (.any (maxDepth - 1))).ofValue v.sorted = .ok e := by
  have follows := Envelope.follows (maxDepth - 1)
  obtain ⟨r, written, ended⟩ := (read_all_ok _ _ v).mp read
  rw [opened_direct, direct, read_all_ok]
  constructor
  · rintro ⟨rest, opened, _⟩
    exact (follows.agrees _ r rest v e written opened).2
  · intro value
    exact ⟨r, follows.reads _ r v e written once value, ended⟩

theorem opened_skipped (text : String) (e : Envelope Value) (opened : openEnvelope text = .ok e) :
    skip.readAll text.toList = .ok () := by
  obtain ⟨r, read, ended⟩ := (read_all_ok _ _ e).mp ((opened_direct text e).mp opened)
  have passed := Envelope.skippable (maxDepth - 1) text.toList.length text.toList r e (Nat.le_refl _) read
  exact (read_all_ok skip _ ()).mpr ⟨r, passed, ended⟩

theorem decodes_opened (text : String) :
    (∃ m, ServerMessage.decode text = .ok m) ↔ ∃ e code p, openEnvelope text = .ok e ∧
      ServerCode.ofNumber? e.code = some code ∧ payload ServerPayload.form e.code e.data = .ok p := by
  constructor
  · rintro ⟨m, decoded⟩
    obtain ⟨e, code, p, opened, known, taken, _⟩ := server_decoded text m decoded
    exact ⟨e, code, p, opened, known, taken⟩
  · rintro ⟨e, code, p, opened, known, taken⟩
    refine ⟨.ofParts code e.message p, (bound_ok _ _ _).mpr ⟨e, opened, ?_⟩⟩
    rw [ServerMessage.ofEnvelope, known]
    exact (bound_ok _ _ _).mpr ⟨p, taken, rfl⟩

theorem sorted_frame (d : Nat) (v : Value) (once : ¬ v.Repeats) :
    (∃ e code p, (Envelope.form (.any d)).ofValue v.sorted = .ok e ∧ ServerCode.ofNumber? e.code = some code ∧
      payload ServerPayload.form e.code e.data = .ok p) ↔ IsServerFrame v := by
  rw [← server_frame_stable v once]
  cases found : v.members? (serverParts.map Prod.fst) with
  | none =>
      have unfound := sorted_unfound _ v found
      constructor
      · rintro ⟨e, _, _, value, _, _⟩
        obtain ⟨_, same, _⟩ := (record_members _ (Envelope.distinct (.any d)) _ e).mp value
        cases unfound.symm.trans same
      · rintro ⟨_, same, _⟩
        cases unfound.symm.trans same
  | some ms =>
      obtain ⟨us, sorted, same⟩ := sorted_found _ v once ms found
      have apart : (us.map Prod.fst).Nodup := by
        rw [(same.map Prod.fst).nodup_iff, sorted_names]
        exact names_once _ v once ms found (by decide)
      rw [frame_value d v.sorted us sorted apart, IsServerFrame, sorted]
      simp

theorem server_decodes_iff_frame (text : String) (regular : Regular text) :
    (∃ m, ServerMessage.decode text = .ok m) ↔ ∃ v, whole text = .ok v ∧ IsServerFrame v := by
  rw [decodes_opened]
  rcases regular with ⟨v, read, once⟩ | ⟨misfit, failed⟩
  · simp only [opened_value text v read once, sorted_frame (maxDepth - 1) v once, read, Except.ok.injEq,
      exists_eq_left']
  · constructor
    · rintro ⟨e, _, _, opened, _, _⟩
      cases failed.symm.trans (opened_skipped text e opened)
    · rintro ⟨v, read, _⟩
      obtain ⟨r, written, ended⟩ := (read_all_ok _ _ v).mp read
      have passed := skip_written maxDepth _ r v written
      cases failed.symm.trans ((read_all_ok skip _ ()).mpr ⟨r, passed, ended⟩)

theorem object_frame_decodes :
    let text := "\x7b\"event_code\":4,\"message\":null,\"data\":\x7b\"session_id\":\"ABCDE\"," ++
      "\"game_data\":\x7b\"turn_index\":2,\"play_indexes\":[[1]]\x7d,\"x\":0.5\x7d\x7d"
    Regular text ∧ (∃ m, ServerMessage.decode text = .ok m) ∧ ∃ v, whole text = .ok v ∧ IsServerFrame v := by
  intro text
  have regular : Regular text := by decide +kernel
  have decoded : ServerMessage.decode text = .ok (.sessionResponse "ABCDE" [] (some ⟨2, [], [[1]]⟩)) := by
    decide +kernel
  exact ⟨regular, ⟨_, decoded⟩, (server_decodes_iff_frame text regular).mp ⟨_, decoded⟩⟩

theorem listed_records_decode :
    let text := "[7,null,[null,null,null,[]]]"
    Regular text ∧ ServerMessage.decode text = .ok .cannotJoinInProgress ∧
      ∀ ms, whole text ≠ .ok (.object ms) := by
  intro text
  refine ⟨by decide +kernel, by decide +kernel, fun ms same => ?_⟩
  have listed : ((whole text).toOption.bind (Value.members? [])).isNone := by decide +kernel
  rw [same] at listed
  cases listed

end DarkDrop.Wire
