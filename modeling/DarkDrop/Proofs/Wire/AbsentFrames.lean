import DarkDrop.Proofs.Json.Parsed
import DarkDrop.Proofs.Wire.Absence

namespace DarkDrop.Wire
open Json

theorem mapped_iff {α β : Type} (f : α → Option β) (as : List α) (bs : List β) :
    as.mapM f = some bs ↔ as.map f = bs.map some := by
  induction as generalizing bs with
  | nil => cases bs <;> simp
  | cons a as ih =>
      simp only [List.mapM_cons, bind, Option.bind_eq_some_iff, pure, Option.some.injEq, ih]
      cases bs with
      | nil => simp
      | cons b bs => simp

theorem sights (ts : List Tree) : ts.mapM sight = some (ts.map (Tree.value? (maxDepth - 1))) := by
  rw [mapped_iff, List.map_map]
  rfl

-- A list is read as an envelope only where each of its elements can be kept.
theorem opens_listed (ts : List Tree) (room : ts.length ≤ envelopeNames.length) (e : Envelope Value)
    (opens : Opens (envelopeNames.zip (ts.map (Tree.value? (maxDepth - 1)))) e) :
    ∃ vs, ts.mapM (Tree.value? (maxDepth - 1)) = some vs := by
  have long : (ts.map (Tree.value? (maxDepth - 1))).length ≤ envelopeNames.length := by rwa [List.length_map]
  have each : ∀ t ∈ ts, ∃ v, t.value? (maxDepth - 1) = some v ∧ True := by
    intro t inside
    have seen := List.mem_map_of_mem (f := Tree.value? (maxDepth - 1)) inside
    rw [← List.map_snd_zip long, List.mem_map] at seen
    obtain ⟨⟨k, o⟩, member, same⟩ := seen
    obtain ⟨v, rfl⟩ := Envelope.opens_kept _ e opens k o member (List.of_mem_zip member).1
    exact ⟨v, same.symm, trivial⟩
  obtain ⟨vs, mapped, _⟩ := all_mapped _ (fun _ => True) ts each
  exact ⟨vs, mapped⟩

theorem envelops_listed (ts : List Tree) (valid : (Tree.list ts).Valid) (text : String) (e : Envelope Value)
    (laid : Laid (Tree.list ts).tokens text.toList) :
    Envelops text e ↔ ∃ es, (Tree.list ts).outline? envelopeNames sight = some es ∧ Opens es e := by
  cases valid with
  | list _ each =>
      rw [← List.append_nil (Tree.list ts).tokens] at laid
      obtain ⟨inside, rest, opened, ended, items⟩ := list_rendered kept (asWritten (maxDepth - 1)) _ ts each
        (fun t member => written_renders t (each t member) (maxDepth - 1)) [] _ laid
      rw [Tree.outline?, sights]
      constructor
      · rintro ⟨es, r, outlined, _, opens⟩
        cases outlined with
        | object _ _ _ other _ => cases opened.symm.trans other
        | list _ _ vs same read short =>
            cases opened.symm.trans same
            have seen := ((items vs r).mp read).1
            rw [Tree.mapped_length _ ts vs seen] at short
            rw [if_pos short, (mapped_iff _ ts vs).mp seen]
            exact ⟨_, rfl, opens⟩
      · rintro ⟨es, outlined, opens⟩
        split at outlined
        · rename_i room
          cases outlined
          obtain ⟨vs, seen⟩ := opens_listed ts room e opens
          rw [(mapped_iff _ ts vs).mp seen] at opens
          rw [← Tree.mapped_length _ ts vs seen] at room
          exact ⟨_, rest, .list _ inside rest vs opened ((items vs rest).mpr ⟨seen, rfl⟩) room, laid_done rest ended,
            opens⟩
        · cases outlined

def Encloses (t : Tree) (e : Envelope Value) : Prop :=
  ∃ es, t.outline? envelopeNames sight = some es ∧ Opens es e

theorem envelops_enclosed (t : Tree) (valid : t.Valid) (text : String) (e : Envelope Value)
    (laid : Laid t.tokens text.toList) :
    Envelops text e ↔ Encloses t e := by
  cases t with
  | object ms => exact envelops_laid ms valid text e laid
  | list ts => exact envelops_listed ts valid text e laid
  | leaf lexeme =>
      cases valid with
      | leaf _ valid =>
          obtain ⟨c, rest, rfl, solid, other⟩ := leaf_starts lexeme valid
          obtain ⟨r, starts, _, _⟩ := laid_token c rest _ [] solid laid
          constructor
          · rintro ⟨es, _, outlined, _, _⟩
            cases outlined with
            | object _ _ _ opened _ =>
                rw [(List.cons.inj (starts.symm.trans opened)).1] at other
                exact absurd other (by decide)
            | list _ _ _ opened _ _ =>
                rw [(List.cons.inj (starts.symm.trans opened)).1] at other
                exact absurd other (by decide)
          · rintro ⟨es, none, _⟩
            cases none

def Told {α : Type} (shows : Value → α → Prop) (x : Option (Option Value)) : Option α → Prop
  | none => x = none ∨ x = some (some (.scalar .null))
  | some a => ∃ v, x = some (some v) ∧ v ≠ .scalar .null ∧ shows v a

theorem member_last {α : Type} (es : List (String × α)) (l : String) (once : (es.map Prod.fst).count l ≤ 1) (a : α) :
    (l, a) ∈ es ↔ es.reverse.lookup l = some a := by
  rw [← List.mem_reverse, member_lookup es.reverse l (by rwa [List.map_reverse, List.count_reverse])]

theorem given_told {α : Type} (es : List (String × Option Value)) (name : String)
    (once : (es.map Prod.fst).count name ≤ 1) (shows : Value → α → Prop) (x : Option α) :
    Given es name shows x ↔ Told shows (es.reverse.lookup name) x := by
  cases x with
  | some a => simp only [Given, Told, member_last es name once]
  | none =>
      have absent : name ∉ es.map Prod.fst ↔ es.reverse.lookup name = none := by
        constructor
        · intro absent
          exact lookup_absent name _ (by simpa using absent)
        · intro none listed
          obtain ⟨⟨_, o⟩, member, rfl⟩ := List.mem_map.mp listed
          rw [member_last es _ once, none] at member
          cases member
      simp only [Given, Told, member_last es name once, absent]

section

variable (es us : List (String × Option Value)) (k : String) (x y : Option (Option Value)) (differ : Differ k x y es us)
include differ

theorem differ_once (l : String) (once : (es.map Prod.fst).count l ≤ 1) : (us.map Prod.fst).count l ≤ 1 := by
  cases differ with
  | intro before after last only =>
      simp only [List.map_append, List.count_append] at once ⊢
      have most (z : Option (Option Value)) : ((entry k z).map Prod.fst).count l ≤ 1 := by
        cases z with
        | none => simp [entry]
        | some z => exact List.count_le_length
      by_cases same : l = k
      · subst same
        rw [List.count_eq_zero.mpr last] at once ⊢
        cases x with
        | none =>
            rw [List.count_eq_zero.mpr (only (.inl rfl)), Nat.zero_add]
            exact most y
        | some x =>
            have counted : ((entry l (some x)).map Prod.fst).count l = 1 := by simp [entry]
            have := most y
            omega
      · have none (z : Option (Option Value)) : ((entry k z).map Prod.fst).count l = 0 := by
          cases z with
          | none => rfl
          | some z => simp [entry, Ne.symm same]
        rwa [none] at once ⊢

variable {α : Type} (shows : Value → α → Prop) (z : Option α)

theorem differ_given (l : String) (other : l ≠ k) (once : (es.map Prod.fst).count l ≤ 1) (given : Given es l shows z) :
    Given us l shows z := by
  rw [given_told us l (differ_once es us k x y differ l once), ← differ_other k x y es us differ l other]
  exact (given_told es l once shows z).mp given

theorem given_here (once : (es.map Prod.fst).count k ≤ 1) : Given es k shows z ↔ Told shows x z := by
  rw [given_told es k once, differ_here k x y es us differ]

theorem differ_member (l : String) (other : l ≠ k) (once : (es.map Prod.fst).count l ≤ 1) (o : Option Value)
    (member : (l, o) ∈ es) : (l, o) ∈ us := by
  rw [member_last us l (differ_once es us k x y differ l once), ← differ_other k x y es us differ l other]
  exact (member_last es l once o).mp member

end

section

variable (es us : List (String × Option Value)) (x y : Option (Option Value)) (e : Envelope Value) (opens : Opens es e)
include opens

theorem opens_message (differ : Differ "message" x y es us) (s : Option String)
    (told : Told (fun v s => v = .ofString s) y s) :
    Opens us { e with message := s } := by
  have once := opens.once
  have once' name (known : name ∈ envelopeNames) := differ_once es us _ x y differ name (once name known)
  refine ⟨once', ?_, ?_, ?_⟩
  · exact differ_member es us _ x y differ "event_code" (by decide) (once _ (by decide)) _ opens.code
  · exact (given_here us es _ y x (differ_turned _ x y es us differ) _ _ (once' _ (by decide))).mpr told
  · exact differ_given es us _ x y differ _ _ "data" (by decide) (once _ (by decide)) opens.data

theorem opens_data (differ : Differ "data" x y es us) (w : Option Value) (told : Told (fun v w => w = v.sorted) y w) :
    Opens us { e with data := w } := by
  have once := opens.once
  have once' name (known : name ∈ envelopeNames) := differ_once es us _ x y differ name (once name known)
  refine ⟨once', ?_, ?_, ?_⟩
  · exact differ_member es us _ x y differ "event_code" (by decide) (once _ (by decide)) _ opens.code
  · exact differ_given es us _ x y differ _ _ "message" (by decide) (once _ (by decide)) opens.message
  · exact (given_here us es _ y x (differ_turned _ x y es us differ) _ _ (once' _ (by decide))).mpr told

theorem code_stays (k : String) (differ : Differ k x y es us) (absent : x = none) : k ≠ "event_code" := by
  rintro rfl
  have here := (member_last es _ (opens.once _ (by decide)) _).mp opens.code
  rw [differ_here _ x y es us differ, absent] at here
  cases here

end

structure Restated {π : Type} [Inhabited π] (form : Form π) (related : π → π → Prop) (e f : Envelope Value) :
    Prop where
  code : e.code = f.code
  message : e.message.getD "" = f.message.getD ""
  data : ∀ n p, payload form n e.data = .ok p → ∃ q, payload form n f.data = .ok q ∧ related p q

theorem told_blank {α : Type} (shows : Value → α → Prop) (d : Nat) (t : Tree) (v : Value) (i : α)
    (seen : t.value? d = some v) (full : v ≠ .scalar .null) (only : ∀ j, shows v j ↔ j = i) (a : Option Tree)
    (blank : ∀ x ∈ a, x ∈ [nullTree, t]) :
    (∃ x, Told shows (a.map (Tree.value? d)) x ∧ x.getD i = i) ∧
      ∀ x, Told shows (a.map (Tree.value? d)) x → x.getD i = i := by
  have ways : a.map (Tree.value? d) = none ∨ a.map (Tree.value? d) = some (some (.scalar .null)) ∨
      a.map (Tree.value? d) = some (some v) := by
    cases a with
    | none => exact .inl rfl
    | some x =>
        have written := blank x rfl
        simp only [List.mem_cons, List.not_mem_nil, or_false] at written
        rcases written with rfl | rfl
        · exact .inr (.inl (congrArg some (null_value d)))
        · exact .inr (.inr (congrArg some seen))
  generalize a.map (Tree.value? d) = y at ways
  constructor
  · rcases ways with rfl | rfl | rfl
    · exact ⟨none, .inl rfl, rfl⟩
    · exact ⟨none, .inr rfl, rfl⟩
    · exact ⟨some i, ⟨v, rfl, full, (only i).mpr rfl⟩, rfl⟩
  · intro x told
    cases x with
    | none => rfl
    | some j =>
        obtain ⟨w, same, present, shown⟩ := told
        rcases ways with rfl | rfl | rfl
        · cases same
        · cases same
          exact absurd rfl present
        · cases same
          exact (only j).mp shown

section

variable (k : String) (a b : Option Tree) (t u : Tree) (differs : Tree.Differs envelopeNames k a b t u)
  (e : Envelope Value) (encloses : Encloses t e)
include differs encloses

theorem encloses_differ : ∃ es us, Opens es e ∧
    Differ k (a.map (Tree.value? (maxDepth - 1))) (b.map (Tree.value? (maxDepth - 1))) es us ∧
      ∀ f, Opens us f → Encloses u f := by
  have sights (a : Option Tree) : Tree.Sees sight a (a.map (Tree.value? (maxDepth - 1))) := by
    cases a with
    | none => exact .none
    | some => exact .some rfl
  obtain ⟨es, seen, opens⟩ := encloses
  obtain ⟨x, sees, other⟩ := Tree.outline_differ _ (by decide) k a b t u differs sight es seen
  obtain ⟨us, seen', differ⟩ := other _ (sights b)
  rw [rel_alone _ (fun t v w one other => Option.some.inj (one.symm.trans other)) a _ _ sees (sights a)] at differ
  exact ⟨es, us, opens, differ, fun f opens' => ⟨us, seen', opens'⟩⟩

end

section

variable {π : Type} [Inhabited π] (form : Form π) (related : π → π → Prop) (refl : ∀ p, related p p) (a b : Option Tree)
  (t u : Tree) (e : Envelope Value) (encloses : Encloses t e)
include encloses

include refl in
theorem message_blank (here : ∀ x ∈ a, x ∈ [nullTree, blankText]) (there : ∀ x ∈ b, x ∈ [nullTree, blankText])
    (differs : Tree.Differs envelopeNames "message" a b t u) : ∃ f, Encloses u f ∧ Restated form related e f := by
  have told := told_blank (fun v s => v = .ofString s) (maxDepth - 1) blankText _ "" (blank_text_value _)
    nofun fun s => by simp [Value.ofString, eq_comm]
  obtain ⟨es, us, opens, differ, enclosed⟩ := encloses_differ _ a b t u differs e encloses
  obtain ⟨s, told', blank'⟩ := (told b there).1
  have given := (given_here es us _ _ _ differ _ _ (opens.once _ (by decide))).mp opens.message
  have blank := (told a here).2 e.message given
  have opens' := opens_message es us _ _ e opens differ s told'
  exact ⟨_, enclosed _ opens', rfl, blank.trans blank'.symm, fun n p read => ⟨p, read, refl p⟩⟩

include refl in
theorem data_blank (empty : form.ofValue (.object []) = .ok default) (here : ∀ x ∈ a, x ∈ [nullTree, blankObject])
    (there : ∀ x ∈ b, x ∈ [nullTree, blankObject]) (differs : Tree.Differs envelopeNames "data" a b t u) :
    ∃ f, Encloses u f ∧ Restated form related e f := by
  have told := told_blank (fun v w => w = v.sorted) (maxDepth - 1) blankObject _ (.object []) (blank_object_value _)
    nofun fun w => Iff.rfl
  have nothing (n : UInt64) (w : Option Value) (blank : w.getD (.object []) = .object []) :
      payload form n w = .ok default := by
    cases w with
    | none => rfl
    | some w =>
        have same : w = .object [] := blank
        rw [payload, same, empty]
        rfl
  obtain ⟨es, us, opens, differ, enclosed⟩ := encloses_differ _ a b t u differs e encloses
  obtain ⟨w, told', blank'⟩ := (told b there).1
  have given := (given_here es us _ _ _ differ _ _ (opens.once _ (by decide))).mp opens.data
  have blank := (told a here).2 e.data given
  refine ⟨_, enclosed _ (opens_data es us _ _ e opens differ w told'), rfl, rfl, fun n p read => ⟨p, ?_, refl p⟩⟩
  rw [nothing n _ blank'] at *
  rwa [nothing n _ blank] at read

theorem data_within (step : Tree → Tree → Prop) (carries : Carries (maxDepth - 1) form related step) (x y : Tree)
    (varies : step x y) (differs : Tree.Differs envelopeNames "data" (some x) (some y) t u) :
    ∃ f, Encloses u f ∧ Restated form related e f := by
  obtain ⟨es, us, opens, differ, enclosed⟩ := encloses_differ _ _ _ t u differs e encloses
  have given := (given_here es us _ _ _ differ _ _ (opens.once _ (by decide))).mp opens.data
  cases whole : e.data with
  | none =>
      rw [whole] at given
      rcases given with none | null
      · cases none
      · obtain ⟨_, _, carried⟩ := carries x y varies _ (Option.some.inj null)
        exact absurd rfl carried.some
  | some _ =>
      rw [whole] at given
      obtain ⟨v, seen, _, rfl⟩ := given
      obtain ⟨w, seen', carried⟩ := carries x y varies v (Option.some.inj seen)
      have told : Told (fun v w => w = v.sorted) ((some y).map (Tree.value? (maxDepth - 1))) (some w.sorted) :=
        ⟨w, congrArg some seen', carried.other, rfl⟩
      refine ⟨_, enclosed _ (opens_data es us _ _ e opens differ _ told), rfl, rfl, fun n p read => ?_⟩
      rw [whole] at read
      obtain ⟨q, read', alike⟩ := carried.read p ((map_error_ok _ _ p).mp read)
      exact ⟨q, (map_error_ok _ _ q).mpr read', alike⟩

include refl in
theorem frame_restated (empty : form.ofValue (.object []) = .ok default) (step : Tree → Tree → Prop)
    (carries : Carries (maxDepth - 1) form related step)
    (varies : Varies frameBlanks (fun k x y => k = "data" ∧ step x y) t u) :
    ∃ f, Encloses u f ∧ Restated form related e f := by
  cases varies with
  | within k x y inside _ _ differs =>
      obtain ⟨rfl, varies⟩ := inside
      exact data_within form related t u e encloses step carries x y varies differs
  | blank k ways listed a b here there _ _ differs =>
      simp only [frameBlanks, List.mem_cons, List.not_mem_nil, or_false, Prod.mk.injEq] at listed
      obtain ⟨rfl, rfl⟩ | ⟨rfl, rfl⟩ | ⟨rfl, rfl⟩ := listed
      · obtain ⟨es, us, opens, differ, _⟩ := encloses_differ _ a b t u differs e encloses
        have absent : a = none := Option.eq_none_iff_forall_not_mem.mpr fun x member => List.not_mem_nil (here x member)
        exact absurd rfl (code_stays es us _ _ e opens _ differ (by rw [absent]; rfl))
      · exact message_blank form related refl a b t u e encloses here there differs
      · exact data_blank form related refl a b t u e encloses empty here there differs

end

theorem server_read (e : Envelope Value) (m : ServerMessage) :
    ServerMessage.ofEnvelope e = .ok m ↔ ∃ code p, ServerCode.ofNumber? e.code = some code ∧
      payload ServerPayload.form e.code e.data = .ok p ∧ ServerMessage.ofParts code e.message p = m := by
  rw [ServerMessage.ofEnvelope]
  cases ServerCode.ofNumber? e.code with
  | none => simp
  | some code =>
      change (payload ServerPayload.form e.code e.data >>= fun p =>
        .ok (ServerMessage.ofParts code e.message p)) = _ ↔ _
      simp [bound_ok]

theorem client_read (e : Envelope Value) (m : ClientMessage) :
    ClientMessage.ofEnvelope e = .ok m ↔ ∃ code p, ClientCode.ofNumber? e.code = some code ∧
      payload ClientPayload.form e.code e.data = .ok p ∧ ClientMessage.ofParts code p = .ok m := by
  rw [ClientMessage.ofEnvelope]
  cases ClientCode.ofNumber? e.code with
  | none => simp
  | some code =>
      change (payload ClientPayload.form e.code e.data >>= fun p =>
        (ClientMessage.ofParts code p).mapError (.missingField e.code)) = _ ↔ _
      simp [bound_ok, map_error_ok]

theorem server_restated (e f : Envelope Value) (m : ServerMessage)
    (restated : Restated ServerPayload.form (SameParts m.code) e f) (read : ServerMessage.ofEnvelope e = .ok m) :
    ServerMessage.ofEnvelope f = .ok m := by
  rw [server_read] at read ⊢
  obtain ⟨code, p, known, here, rfl⟩ := read
  rw [server_parts_code] at restated
  obtain ⟨q, there, same⟩ := restated.data e.code p here
  rw [← restated.code]
  exact ⟨code, q, known, there, (same_parts_message code _ _ p q restated.message same).symm⟩

theorem client_restated (e f : Envelope Value) (m : ClientMessage) (restated : Restated ClientPayload.form Eq e f)
    (read : ClientMessage.ofEnvelope e = .ok m) : ClientMessage.ofEnvelope f = .ok m := by
  rw [client_read] at read ⊢
  obtain ⟨code, p, known, here, parts⟩ := read
  obtain ⟨_, there, rfl⟩ := restated.data e.code p here
  rw [← restated.code]
  exact ⟨code, p, known, there, parts⟩

theorem response_restated (e f : Envelope Value) (session : String) (members : List String) (game i j : Option Snapshot)
    (restated : Restated ServerPayload.form (Regamed i j) e f)
    (read : ServerMessage.ofEnvelope e = .ok (.sessionResponse session members game)) :
    game = i ∧ ServerMessage.ofEnvelope f = .ok (.sessionResponse session members j) := by
  rw [server_read] at read ⊢
  obtain ⟨code, p, known, here, parts⟩ := read
  obtain ⟨_, there, rfl, rfl⟩ := restated.data e.code p here
  have told : code = .sessionResponse := by
    rw [← server_parts_code code e.message p, parts]
    rfl
  subst told
  cases parts
  rw [← restated.code]
  exact ⟨rfl, .sessionResponse, _, known, there, rfl⟩

section

variable {μ : Type} (read : Envelope Value → Except FrameError μ) (t : Tree) (valid : t.Valid) (text : String)
  (laid : Laid t.tokens text.toList) (m : μ)

include valid laid in
theorem decoded_enclosed : openEnvelope text >>= read = .ok m ↔ ∃ e, Encloses t e ∧ read e = .ok m := by
  simp only [bound_ok, open_envelope, envelops_enclosed t valid text _ laid]

theorem chain_keeps (step : Tree → Tree → Prop)
    (one : ∀ t u e, step t u → Encloses t e → read e = .ok m → ∃ f, Encloses u f ∧ read f = .ok m) (u : Tree)
    (chain : Relation.ReflTransGen step t u) (before : ∃ e, Encloses t e ∧ read e = .ok m) :
    ∃ f, Encloses u f ∧ read f = .ok m := by
  induction chain with
  | refl => exact before
  | tail _ last ih =>
      obtain ⟨e, encloses, told⟩ := ih
      exact one _ _ e last encloses told

end

theorem server_step (m : ServerMessage) (t u : Tree) (e : Envelope Value) (varies : ServerVaries m.code t u)
    (encloses : Encloses t e) (read : ServerMessage.ofEnvelope e = .ok m) :
    ∃ f, Encloses u f ∧ ServerMessage.ofEnvelope f = .ok m := by
  obtain ⟨f, encloses', restated⟩ := frame_restated ServerPayload.form _ (same_parts_refl m.code) t u e encloses rfl
    (ServerDataVaries m.code) (server_carries (maxDepth - 4) m.code) varies
  exact ⟨f, encloses', server_restated e f m restated read⟩

theorem client_step (m : ClientMessage) (t u : Tree) (e : Envelope Value) (varies : ClientVaries t u)
    (encloses : Encloses t e) (read : ClientMessage.ofEnvelope e = .ok m) :
    ∃ f, Encloses u f ∧ ClientMessage.ofEnvelope f = .ok m := by
  obtain ⟨f, encloses', restated⟩ := frame_restated ClientPayload.form Eq (fun _ => rfl) t u e encloses rfl
    ClientDataVaries (client_carries (maxDepth - 2)) varies
  exact ⟨f, encloses', client_restated e f m restated read⟩

theorem game_turned (t u : Tree) (varies : GameVaries t u) : GameVaries u t :=
  varies_turned _ _ t u varies fun _ _ _ never => never.elim

theorem server_data_turned (code : ServerCode) (t u : Tree) (varies : ServerDataVaries code t u) :
    ServerDataVaries code u t :=
  varies_turned _ _ t u varies fun _ x y inside => ⟨inside.1, game_turned x y inside.2⟩

theorem client_data_turned (t u : Tree) (varies : ClientDataVaries t u) : ClientDataVaries u t :=
  varies_turned _ _ t u varies fun _ _ _ never => never.elim

theorem server_turned (code : ServerCode) (t u : Tree) (varies : ServerVaries code t u) : ServerVaries code u t :=
  varies_turned _ _ t u varies fun _ x y inside => ⟨inside.1, server_data_turned code x y inside.2⟩

theorem client_turned (t u : Tree) (varies : ClientVaries t u) : ClientVaries u t :=
  varies_turned _ _ t u varies fun _ x y inside => ⟨inside.1, client_data_turned x y inside.2⟩

theorem null_valid : nullTree.Valid := .leaf _ (.word _ (by decide))

theorem blank_text_valid : blankText.Valid := .leaf _ (.text [] (plain_body _ (by decide)))

theorem zero_valid : zeroTree.Valid := .leaf _ (digit_lexeme _ (by decide))

theorem blank_list_valid : blankList.Valid := .list _ (List.forall_mem_nil _)

theorem blank_object_valid : blankObject.Valid := .object _ (List.forall_mem_nil _) (List.forall_mem_nil _)

theorem game_kept (t u : Tree) (varies : GameVaries t u) (valid : t.Valid) : u.Valid := by
  apply varies_valid _ _ t u varies valid
  · simp [gameBlanks, zero_valid, blank_list_valid]
  · exact fun _ _ _ never => never.elim

theorem server_data_kept (code : ServerCode) (t u : Tree) (varies : ServerDataVaries code t u) (valid : t.Valid) :
    u.Valid := by
  apply varies_valid _ _ t u varies valid
  · by_cases response : code = .sessionResponse <;>
      simp [serverBlanks, response, null_valid, blank_text_valid, blank_list_valid, blank_object_valid]
  · exact fun _ x y inside => game_kept x y inside.2

theorem client_data_kept (t u : Tree) (varies : ClientDataVaries t u) (valid : t.Valid) : u.Valid := by
  apply varies_valid _ _ t u varies valid
  · simp [clientBlanks, null_valid]
  · exact fun _ _ _ never => never.elim

theorem frame_kept (step : Tree → Tree → Prop) (kept : ∀ x y, step x y → x.Valid → y.Valid) (t u : Tree)
    (varies : Varies frameBlanks (fun k x y => k = "data" ∧ step x y) t u) (valid : t.Valid) : u.Valid := by
  apply varies_valid _ _ t u varies valid
  · simp [frameBlanks, null_valid, blank_text_valid, blank_object_valid]
  · exact fun _ x y inside => kept x y inside.2

theorem chain_kept (step : Tree → Tree → Prop) (kept : ∀ x y, step x y → x.Valid → y.Valid) (t u : Tree)
    (chain : Relation.ReflTransGen step t u) (valid : t.Valid) : u.Valid := by
  induction chain with
  | refl => exact valid
  | tail _ last ih => exact kept _ _ last ih

inductive EmptyGame : Tree → Tree → Prop where
  | intro (a : Option Tree) (missing : ∀ z ∈ a, z = nullTree) (x y t u : Tree)
      (inside : Tree.Differs (serverBlanks .sessionResponse |>.map Prod.fst) "game_data" a (some blankObject) x y)
      (differs : Tree.Differs (frameBlanks.map Prod.fst) "data" (some x) (some y) t u) : EmptyGame t u

theorem empty_game_kept (t u : Tree) (empty : EmptyGame t u) (valid : t.Valid) : u.Valid := by
  cases empty with
  | intro a missing x y _ _ inside differs =>
      have before := Tree.differs_part _ _ _ _ _ _ differs valid x rfl
      apply Tree.differs_valid _ _ _ _ _ _ differs valid
      intro z here
      cases here
      apply Tree.differs_valid _ _ _ _ _ _ inside before
      intro z here
      cases here
      exact blank_object_valid

theorem empty_game_told (t u : Tree) (empty : EmptyGame t u) (session : String) (members : List String)
    (game : Option Snapshot) :
    (∀ e, Encloses t e → ServerMessage.ofEnvelope e = .ok (.sessionResponse session members game) → game = none ∧
      ∃ f, Encloses u f ∧ ServerMessage.ofEnvelope f = .ok (.sessionResponse session members (some {}))) ∧
    (∀ f, Encloses u f → ServerMessage.ofEnvelope f = .ok (.sessionResponse session members game) → game = some {} ∧
      ∃ e, Encloses t e ∧ ServerMessage.ofEnvelope e = .ok (.sessionResponse session members none)) := by
  cases empty with
  | intro a missing x y _ _ inside differs =>
      obtain ⟨v, i, here, none⟩ := game_missing (maxDepth - 2) a missing
      have there := game_empty (maxDepth - 3)
      constructor
      · intro e encloses read
        obtain ⟨f, encloses', restated⟩ := data_within ServerPayload.form _ t u e encloses _
          (game_rewritten (maxDepth - 2) _ _ _ _ _ _ here there) x y inside differs
        obtain ⟨same, read'⟩ := response_restated e f session members game _ _ restated read
        exact ⟨same.trans none, f, encloses', read'⟩
      · intro f encloses read
        obtain ⟨e, encloses', restated⟩ := data_within ServerPayload.form _ u t f encloses _
          (game_rewritten (maxDepth - 2) _ _ _ _ _ _ there here) y x (Tree.differs_turned _ _ _ _ _ _ inside)
          (Tree.differs_turned _ _ _ _ _ _ differs)
        obtain ⟨same, read'⟩ := response_restated f e session members game _ _ restated read
        exact ⟨same, e, encloses', none ▸ read'⟩

structure Layout (t : Tree) (text : String) : Prop where
  valid : t.Valid
  laid : Laid t.tokens text.toList

theorem opened_laid (text : String) (e : Envelope Value) (opened : openEnvelope text = .ok e) :
    ∃ t, Layout t text := by
  obtain ⟨r, read, ended⟩ := (read_all_ok skip _ ()).mp (opened_skipped text e opened)
  obtain ⟨t, valid, laid⟩ := (skipped_iff_laid text.toList).mp ⟨r, read, (finish_ok r).mp ended⟩
  exact ⟨t, valid, laid⟩

theorem chain_decoded {μ : Type} (read : Envelope Value → Except FrameError μ) (m : μ) (step : Tree → Tree → Prop)
    (kept : ∀ x y, step x y → x.Valid → y.Valid) (turned : ∀ t u, step t u → step u t)
    (one : ∀ t u e, step t u → Encloses t e → read e = .ok m → ∃ f, Encloses u f ∧ read f = .ok m) (t u : Tree)
    (text text' : String) (laid : Layout t text) (chain : Relation.ReflTransGen step t u)
    (laid' : Laid u.tokens text'.toList) :
    openEnvelope text >>= read = .ok m ↔ openEnvelope text' >>= read = .ok m := by
  have back := Relation.ReflTransGen.swap _ _ (Relation.ReflTransGen.mono turned _ _ chain)
  have valid := chain_kept step kept t u chain laid.valid
  rw [decoded_enclosed read t laid.valid text laid.laid m, decoded_enclosed read u valid text' laid' m]
  exact ⟨chain_keeps read t m step one u chain, chain_keeps read u m step one t back⟩

-- Every frame is laid out from a tree; whatever is left out of it or written as nothing, one thing or many, in
-- whatever layout, it is decoded as the same message. Only a session that is told has a game that can be empty.
structure SameMeaning (text : String) : Prop where
  tree : (∃ m, ServerMessage.decode text = .ok m) ∨ (∃ m, ClientMessage.decode text = .ok m) → ∃ t, Layout t text
  server : ∀ (m : ServerMessage) t u text', Layout t text → Relation.ReflTransGen (ServerVaries m.code) t u →
    Laid u.tokens text'.toList → (ServerMessage.decode text = .ok m ↔ ServerMessage.decode text' = .ok m)
  client : ∀ (m : ClientMessage) t u text', Layout t text → Relation.ReflTransGen ClientVaries t u →
    Laid u.tokens text'.toList → (ClientMessage.decode text = .ok m ↔ ClientMessage.decode text' = .ok m)
  told : ∀ session members game t u text', Layout t text → EmptyGame t u → Laid u.tokens text'.toList →
    (ServerMessage.decode text = .ok (.sessionResponse session members game) →
      game = none ∧ ServerMessage.decode text' = .ok (.sessionResponse session members (some {}))) ∧
    (ServerMessage.decode text' = .ok (.sessionResponse session members game) →
      game = some {} ∧ ServerMessage.decode text = .ok (.sessionResponse session members none))

theorem absent_null_empty (text : String) : SameMeaning text where
  tree decoded := by
    obtain ⟨m, decoded⟩ | ⟨m, decoded⟩ := decoded
    · obtain ⟨e, opened, _⟩ := (bound_ok _ _ m).mp decoded
      exact opened_laid text e opened
    · obtain ⟨e, opened, _⟩ := (bound_ok _ _ m).mp decoded
      exact opened_laid text e opened
  server m t u text' :=
    chain_decoded _ m _ (frame_kept _ (server_data_kept m.code)) (server_turned m.code) (server_step m) t u text text'
  client m t u text' :=
    chain_decoded _ m _ (frame_kept _ client_data_kept) client_turned (client_step m) t u text text'
  told session members game t u text' laid empty laid' := by
    have here := decoded_enclosed ServerMessage.ofEnvelope t laid.valid text laid.laid
    have there := decoded_enclosed ServerMessage.ofEnvelope u (empty_game_kept t u empty laid.valid) text' laid'
    obtain ⟨forth, back⟩ := empty_game_told t u empty session members game
    simp only [ServerMessage.decode, here, there]
    constructor
    · rintro ⟨e, encloses, read⟩
      exact forth e encloses read
    · rintro ⟨f, encloses, read⟩
      exact back f encloses read

section

variable (names : List String) (k : String) (name : List Char) (named : name? name = some k) (body : Body name)
  (before : List (List Char × Tree))
include named body

theorem member_added (fresh : ∀ m ∈ before, name? m.1 ≠ some k) (x : Tree) :
    Tree.Differs names k none (some x) (.object before) (.object (before ++ [(name, x)])) := by
  have differs : Tree.Differs names k none (some x) (.object (before ++ entry name none ++ []))
      (.object (before ++ entry name (some x) ++ [])) :=
    .object name named body before [] (List.forall_mem_nil _) fun _ => fresh
  simpa [entry] using differs

theorem member_changed (x y : Tree) :
    Tree.Differs names k (some x) (some y) (.object (before ++ [(name, x)])) (.object (before ++ [(name, y)])) := by
  have differs : Tree.Differs names k (some x) (some y) (.object (before ++ entry name (some x) ++ []))
      (.object (before ++ entry name (some y) ++ [])) :=
    .object name named body before [] (List.forall_mem_nil _) nofun
  simpa [entry] using differs

end

def codeMember (digit : Char) : List Char × Tree := ("event_code".toList, .leaf [digit])

def frameWith (digit : Char) (data : Tree) : Tree := .object [codeMember digit, ("data".toList, data)]

theorem code_valid (digit : Char) (known : digit.isDigit) (ms : List (List Char × Tree)) (bodies : ∀ m ∈ ms, Body m.1)
    (each : ∀ m ∈ ms, m.2.Valid) : (Tree.object (codeMember digit :: ms)).Valid := by
  apply Tree.Valid.object
  · exact List.forall_mem_cons.mpr ⟨plain_body "event_code".toList (by decide +kernel), bodies⟩
  · exact List.forall_mem_cons.mpr ⟨.leaf _ (digit_lexeme digit known), each⟩

theorem data_named : name? "data".toList = some "data" ∧ Body "data".toList :=
  ⟨by decide +kernel, plain_body _ (by decide +kernel)⟩

theorem blank_frames_decoded :
    ServerMessage.decode (spread (.object [codeMember '1'])) = .ok (.clientJoined "" "" []) ∧
    ServerMessage.decode (spread (frameWith '1' (.object [("session_id".toList, nullTree)]))) =
      .ok (.clientJoined "" "" []) ∧
    ServerMessage.decode (spread (frameWith '4' blankObject)) = .ok (.sessionResponse "" [] none) ∧
    ServerMessage.decode (spread (frameWith '4' (.object [("game_data".toList, blankObject)]))) =
      .ok (.sessionResponse "" [] (some {})) := by
  have joined : ServerMessage.decode (spread (.object [codeMember '1'])) = .ok (.clientJoined "" "" []) := by
    decide +kernel
  have asked : ServerMessage.decode (spread (frameWith '4' blankObject)) = .ok (.sessionResponse "" [] none) := by
    decide +kernel
  have other : ∀ m ∈ [codeMember '1'], name? m.1 ≠ some "data" := by
    rw [List.forall_mem_singleton]
    decide +kernel
  have empty : ServerVaries .clientJoined (.object [codeMember '1']) (frameWith '1' blankObject) :=
    .blank "data" _ (.tail _ (.tail _ (.head _))) none (some blankObject) nofun (by simp) _ _
      (member_added _ _ _ data_named.1 data_named.2 _ other _)
  have null : ServerVaries .clientJoined (frameWith '1' blankObject)
      (frameWith '1' (.object [("session_id".toList, nullTree)])) := by
    refine .within "data" _ _ ⟨rfl, .blank "session_id" _ (.head _) none (some nullTree) nofun (by simp) _ _ ?_⟩ _ _
      (member_changed _ _ _ data_named.1 data_named.2 [codeMember '1'] _ _)
    exact member_added _ _ _ (by decide +kernel) (plain_body _ (by decide +kernel)) [] (List.forall_mem_nil _) _
  have game : EmptyGame (frameWith '4' blankObject) (frameWith '4' (.object [("game_data".toList, blankObject)])) := by
    refine .intro none nofun _ _ _ _ ?_ (member_changed _ _ _ data_named.1 data_named.2 [codeMember '4'] _ _)
    exact member_added _ _ _ (by decide +kernel) (plain_body _ (by decide +kernel)) [] (List.forall_mem_nil _) _
  have bare : (Tree.object [codeMember '1']).Valid :=
    code_valid _ (by decide) [] (List.forall_mem_nil _) (List.forall_mem_nil _)
  have open' : (frameWith '4' blankObject).Valid :=
    code_valid _ (by decide) _ (by simpa using data_named.2) (by simpa using blank_object_valid)
  refine ⟨joined, ?_, asked, ?_⟩
  · exact ((absent_null_empty _).server (.clientJoined "" "" []) _ _ _ ⟨bare, laid_spread _⟩
      (.tail (.single empty) null) (laid_spread _)).mp joined
  · exact ((absent_null_empty _).told _ _ _ _ _ _ ⟨open', laid_spread _⟩ game (laid_spread _)).1 asked |>.2

end DarkDrop.Wire
