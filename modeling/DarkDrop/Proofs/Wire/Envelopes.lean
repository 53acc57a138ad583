import DarkDrop.Proofs.Json.Gathered
import DarkDrop.Proofs.Wire.ServerFrames

namespace DarkDrop.Wire
open Json

def envelopeNames : List String := ["event_code", "message", "data"]

structure Opens (ms : List (String × Option Value)) (e : Envelope Value) : Prop where
  once : ∀ name ∈ envelopeNames, (ms.map Prod.fst).count name ≤ 1
  code : ("event_code", some (.ofNat e.code)) ∈ ms
  message : Given ms "message" (fun v s => v = .ofString s) e.message
  data : Given ms "data" (fun v w => w = v.sorted) e.data

-- The texts that can be read as an envelope, and what they say. Whatever stands in other members is
-- skipped, and need not be readable; the data must be, down to the depth that is left to it.
def Envelops (text : String) (e : Envelope Value) : Prop :=
  ∃ ms r, Outlined envelopeNames (maxDepth - 1) text.toList ms r ∧ skipSpace r = [] ∧ Opens ms e

theorem finish_ok (r : List Char) : finish r = .ok () ↔ skipSpace r = [] := by
  rw [finish]
  split
  · rename_i blank
    simp [blank]
  · rename_i more
    simp only [reduceCtorEq, false_iff]
    exact more

namespace Envelope

theorem sighted (d : Nat) : (record (.any d)).Sighted d := by
  simp only [Record.Sighted, record, List.forall_mem_cons]
  refine ⟨fun _ => ?_, fun _ => ?_, fun _ => ?_, List.forall_mem_nil _⟩
  · exact map_sighted d _ _ _ (scalar_sighted d _ _)
  · exact map_sighted d _ _ _ (optional_sighted d .text (scalar_sighted d _ _))
  · exact map_sighted d _ _ _ (optional_sighted d (.any d) (any_sighted d))

theorem holds_message {δ : Type} (data : Form δ) :
    (record data).Holds "message" (·.message) (.optional .text) := by
  refine holds_of _ _ _ _ (fun d x => { d with message := some x }) rfl (fun _ _ => rfl) ?_
  simp only [record, List.forall_mem_cons]
  exact ⟨fun _ => of_keeps _ _ _ _ _ fun _ _ => rfl, fun other => absurd rfl other,
    fun _ => of_keeps _ _ _ _ _ fun _ _ => rfl, List.forall_mem_nil _⟩

theorem text_value (v : Value) (s : String) : Form.text.ofValue v.sorted = .ok s ↔ v = .ofString s := by
  cases v with
  | scalar x => cases x <;> simp [Form.text, Form.scalar, Value.ofString, Value.sorted]
  | list | object => simp [Form.text, Form.scalar, Value.ofString, Value.sorted]

theorem sorted_number (v : Value) (n : UInt64) : v.sorted = .ofNat n ↔ v = .ofNat n := by
  cases v <;> simp [Value.sorted, Value.ofNat]

theorem known_iff (d : Nat) (k : String) : ((record (.any d)).field? k).isSome ↔ k ∈ envelopeNames := by
  rw [envelopeNames]
  obtain ⟨rfl, found⟩ | ⟨rfl, found⟩ | ⟨rfl, found⟩ | ⟨unnamed, missing⟩ := field_cases (.any d) k
  · simp [found]
  · simp [found]
  · simp [found]
  · simp [missing, unnamed]

section

variable (d : Nat) (ms : List (String × Option Value))

theorem opens_alone (e f : Envelope Value) (here : Opens ms e) (there : Opens ms f) : e = f := by
  have once (name : String) (member : name ∈ envelopeNames) := here.once name member
  have code : e.code = f.code := by
    have same := alone _ _ _ ms (once "event_code" (by decide)) here.code there.code
    simpa [Value.ofNat] using same
  have message := given_alone ms "message" _ (once _ (by decide))
    (fun v a b left right => by simpa [Value.ofString] using left.symm.trans right) _ _ here.message there.message
  have data := given_alone ms "data" _ (once _ (by decide))
    (fun v a b left right => left.trans right.symm) _ _ here.data there.data
  obtain ⟨_, _, _⟩ := e
  cases code
  cases message
  cases data
  rfl

variable (draft : Draft Value) (e : Envelope Value)

theorem gathers_opens (gathers : Gathers (record (.any d)) (record (.any d)).blank ms draft)
    (whole : (record (.any d)).complete draft = .ok e) : Opens ms e := by
  obtain ⟨code, numbered, rfl⟩ := (complete_whole (.any d) draft e).mp whole
  refine ⟨?_, ?_, ?_, ?_⟩
  · simp only [envelopeNames, List.forall_mem_cons]
    refine ⟨?_, ?_, ?_, List.forall_mem_nil _⟩
    all_goals exact gathered_once _ _ ms draft rfl gathers
  · obtain ⟨_, none⟩ | ⟨v, b, given, value, here⟩ :=
      gathered_field _ "event_code" ms draft rfl gathers _ _ (holds_code (.any d))
    · cases numbered.symm.trans none
    · cases numbered.symm.trans here
      rw [count_value, sorted_number] at value
      rwa [value] at given
  · have given := gathered_optional _ "message" ms draft rfl gathers _ _ (holds_message (.any d)) rfl
    simpa only [text_value] using given
  · have given := gathered_optional _ "data" ms draft rfl gathers _ _ (holds_data (.any d)) rfl
    have same (v w : Value) : (Form.any d).ofValue v.sorted = .ok w ↔ w = v.sorted :=
      ⟨fun taken => (Except.ok.inj taken).symm, fun here => by rw [here]; rfl⟩
    simpa only [same] using given

theorem opens_kept (opens : Opens ms e) (k : String) (o : Option Value) (member : (k, o) ∈ ms)
    (known : k ∈ envelopeNames) : ∃ v, o = some v := by
  have once := opens.once k known
  simp only [envelopeNames, List.mem_cons, List.not_mem_nil, or_false] at known
  rcases known with rfl | rfl | rfl
  · exact ⟨_, alone _ _ _ ms once member opens.code⟩
  · obtain ⟨v, same, _⟩ := given_kept ms "message" _ once _ opens.message o member
    exact ⟨v, same⟩
  · obtain ⟨v, same, _⟩ := given_kept ms "data" _ once _ opens.data o member
    exact ⟨v, same⟩

theorem opens_fits (opens : Opens ms e) : Value.Fits anyParts (fillings (record (.any d)) ms) := by
  simp only [Value.Fits, anyParts, List.forall_mem_cons]
  refine ⟨fun w filling => ?_, fun w filling => ?_, fun _ _ => .inr trivial, List.forall_mem_nil _⟩
  · obtain ⟨_, v, member, rfl⟩ := (filling_iff _ _ w ms).mp filling
    cases alone _ _ _ ms (opens.once _ (by decide)) member opens.code
    exact ⟨e.code, rfl⟩
  · obtain ⟨_, v, member, rfl⟩ := (filling_iff _ _ w ms).mp filling
    obtain ⟨_, same, null | ⟨s, _, text⟩⟩ :=
      given_kept ms "message" _ (opens.once _ (by decide)) _ opens.message _ member
    · cases same
      exact .inl (by rw [null]; rfl)
    · cases same
      exact .inr ⟨s, by rw [text]; rfl⟩

theorem opens_gathers (opens : Opens ms e) :
    ∃ draft, Gathers (record (.any d)) (record (.any d)).blank ms draft ∧ (record (.any d)).complete draft = .ok e := by
  have kept : ∀ m ∈ ms, ((record (.any d)).field? m.1).isSome → m.2.isSome := by
    intro m member known
    obtain ⟨v, same⟩ := opens_kept ms e opens m.1 m.2 member ((known_iff d m.1).mp known)
    rw [same]
    rfl
  have once : ((fillings (record (.any d)) ms).map Prod.fst).Nodup := by
    refine List.nodup_iff_count_le_one.mpr fun k => ?_
    by_cases known : ((record (.any d)).field? k).isSome
    · rw [fillings_count _ k known ms kept]
      exact opens.once k ((known_iff d k).mp known)
    · have absent : k ∉ (fillings (record (.any d)) ms).map Prod.fst := fun listed => by
        obtain ⟨⟨_, w⟩, filling, rfl⟩ := List.mem_map.mp listed
        exact known ((filling_iff _ _ w ms).mp filling).1
      rw [List.count_eq_zero_of_not_mem absent]
      exact Nat.zero_le 1
  obtain ⟨draft, taken⟩ :=
    (takes_fit _ (distinct _) _ (any_described d) (record (.any d)).blank _).mpr (opens_fits d ms e opens)
  have gathers : Gathers (record (.any d)) (record (.any d)).blank ms draft :=
    ⟨kept, once, fun _ _ f found => (distinct _).vacant f (field_named _ _ f found).1, taken⟩
  refine ⟨draft, gathers, ?_⟩
  obtain ⟨absent, _⟩ | ⟨v, code, _, _, numbered⟩ :=
    gathered_field _ "event_code" ms draft rfl gathers _ _ (holds_code (.any d))
  · exact absurd (List.mem_map.mpr ⟨_, opens.code, rfl⟩) absent
  · have whole := (complete_whole (.any d) draft _).mpr ⟨code, numbered, rfl⟩
    rw [opens_alone ms e _ opens (gathers_opens d ms draft _ gathers whole), whole]

end

end Envelope

theorem open_envelope (text : String) (e : Envelope Value) :
    openEnvelope text = .ok e ↔ Envelops text e := by
  have outlined := record_outlined (Envelope.record (.any (maxDepth - 1))) (Envelope.distinct _) (maxDepth - 1)
    (Envelope.sighted _) text.toList
  rw [opened_direct, direct, read_all_ok]
  constructor
  · rintro ⟨r, read, ended⟩
    obtain ⟨ms, outline, draft, gathers, whole⟩ := (outlined r e).mp read
    exact ⟨ms, r, outline, (finish_ok r).mp ended, Envelope.gathers_opens _ ms draft e gathers whole⟩
  · rintro ⟨ms, r, outline, ended, opens⟩
    exact ⟨r, (outlined r e).mpr ⟨ms, outline, Envelope.opens_gathers _ ms e opens⟩, (finish_ok r).mpr ended⟩

end DarkDrop.Wire
