import DarkDrop.Proofs.Json.Blind
import DarkDrop.Proofs.Wire.Verdicts

namespace DarkDrop.Wire
open Json

def gameNames : List (String × Schema) :=
  [("turn_index", .any), ("player_order", .any), ("play_indexes", .any)]

def serverNames : List (String × Schema) :=
  [("session_id", .any), ("client_id", .any), ("session_client_ids", .any), ("game_data", .record gameNames)]

def clientNames : List (String × Schema) :=
  [("session_id", .any), ("column", .any), ("target_ids", .any)]

def frameSchema (data : List (String × Schema)) : Schema :=
  .record [("event_code", .any), ("message", .any), ("data", .record data)]

theorem snapshot_blind : Blind (.record gameNames) Snapshot.form.ofValue := by
  have texts := list_blind .text (scalar_blind .any _ _)
  have columns := list_blind _ (list_blind (.count "u64") (scalar_blind .any _ _))
  refine record_blind Snapshot.record gameNames ?_ snapshot_lawful.distinct
  exact .cons (of_overlooks _ _ _ _ _ (scalar_blind _ _ _)) <| .cons (of_overlooks _ _ _ _ _ texts) <|
    .cons (of_overlooks _ _ _ _ _ columns) .nil

theorem server_blind : Blind (.record serverNames) ServerPayload.form.ofValue := by
  have text := optional_blind .any .text (scalar_blind _ _ _)
  have texts := optional_blind .any _ (list_blind .text (scalar_blind _ _ _))
  have game := optional_blind _ _ snapshot_blind
  refine record_blind ServerPayload.record serverNames ?_ server_lawful.distinct
  exact .cons (of_overlooks _ _ _ _ _ text) <| .cons (of_overlooks _ _ _ _ _ text) <|
    .cons (of_overlooks _ _ _ _ _ texts) <| .cons (of_overlooks _ _ _ _ _ game) .nil

theorem client_blind : Blind (.record clientNames) ClientPayload.form.ofValue := by
  have text := optional_blind .any .text (scalar_blind _ _ _)
  have column := optional_blind .any (.count "usize") (scalar_blind _ _ _)
  have texts := optional_blind .any _ (list_blind .text (scalar_blind _ _ _))
  refine record_blind ClientPayload.record clientNames ?_ client_lawful.distinct
  exact .cons (of_overlooks _ _ _ _ _ text) <| .cons (of_overlooks _ _ _ _ _ column) <|
    .cons (of_overlooks _ _ _ _ _ texts) .nil

def sight (t : Tree) : Option (Option Value) := some (t.value? (maxDepth - 1))

theorem envelops_laid (ms : List (List Char × Tree)) (valid : (Tree.object ms).Valid) (text : String)
    (e : Envelope Value) (laid : Laid (Tree.object ms).tokens text.toList) :
    Envelops text e ↔ ∃ es, ms.mapM (Tree.pair? sight) = some es ∧ Opens es e := by
  cases valid with
  | object _ bodies each =>
      rw [← List.append_nil (Tree.object ms).tokens] at laid
      obtain ⟨inside, rest, opened, ended, entries⟩ := object_rendered (glimpse (maxDepth - 1)) sight ms bodies
        (fun m member => glimpse_renders m.2 (each m member) (maxDepth - 1)) [] _ laid
      constructor
      · rintro ⟨es, r, outlined, _, opens⟩
        cases outlined with
        | object _ _ _ same read =>
            cases opened.symm.trans same
            exact ⟨es, ((entries es r).mp read).1, opens⟩
        | list _ _ _ other => cases opened.symm.trans other
      · rintro ⟨es, found, opens⟩
        exact ⟨es, rest, .object _ inside rest es opened ((entries es rest).mpr ⟨found, rfl⟩), laid_done rest ended, opens⟩

section

variable (ms us : List (String × Option Value))

theorem given_carried {α β : Type} (name : String) (related : Value → Value → Prop) (shows : Value → α → Prop)
    (shows' : Value → β → Prop) (means : α → β → Prop)
    (here : ∀ o, (name, o) ∈ ms → ∃ o', (name, o') ∈ us ∧ Option.Rel related o o')
    (there : (us.map Prod.fst).count name = (ms.map Prod.fst).count name)
    (null : ∀ v w, related v w → (v = .scalar .null ↔ w = .scalar .null))
    (carried : ∀ v w a, related v w → shows v a → ∃ b, shows' w b ∧ means a b) (x : Option α)
    (given : Given ms name shows x) : ∃ y, Given us name shows' y ∧ Option.Rel means x y := by
  cases x with
  | none =>
      refine ⟨none, ?_, .none⟩
      rcases given with absent | given
      · rw [← List.count_eq_zero, ← there, List.count_eq_zero] at absent
        exact .inl absent
      · obtain ⟨_, given', alike⟩ := here _ given
        cases alike with
        | some alike => exact .inr ((null _ _ alike).mp rfl ▸ given')
  | some a =>
      obtain ⟨v, given, present, shown⟩ := given
      obtain ⟨_, given', alike⟩ := here _ given
      cases alike with
      | @some _ w alike =>
          obtain ⟨b, shown', same⟩ := carried v w a alike shown
          exact ⟨some b, ⟨w, given', fun none => present ((null v w alike).mpr none), shown'⟩, .some same⟩

variable (related : String → Value → Value → Prop)
  (plain : ∀ name v w, related name v w → ∀ x, v = .scalar x ↔ w = .scalar x)
  (here : ∀ name ∈ envelopeNames, ∀ o, (name, o) ∈ ms → ∃ o', (name, o') ∈ us ∧ Option.Rel (related name) o o')
  (there : ∀ name ∈ envelopeNames, (us.map Prod.fst).count name = (ms.map Prod.fst).count name)
include plain here there

theorem opens_carried (e : Envelope Value) (opens : Opens ms e) :
    ∃ f, Opens us f ∧ f.code = e.code ∧ f.message = e.message ∧
      Option.Rel (fun a b => ∃ v w, related "data" v w ∧ a = v.sorted ∧ b = w.sorted) e.data f.data := by
  obtain ⟨_, coded, alike⟩ := here "event_code" (by decide) _ opens.code
  cases alike with
  | some alike =>
      have number := (plain _ _ _ alike _).mp rfl
      subst number
      obtain ⟨message, given, said⟩ := given_carried ms us "message" (related "message") _
        (fun v s => v = .ofString s) Eq (here _ (by decide)) (there _ (by decide)) (fun v w alike => plain _ v w alike _)
        (fun v w s alike shown => ⟨s, (plain _ v w alike _).mp shown, rfl⟩) e.message opens.message
      obtain ⟨data, filled, moved⟩ := given_carried ms us "data" (related "data") _ (fun v w => w = v.sorted)
        (fun a b => ∃ v w, related "data" v w ∧ a = v.sorted ∧ b = w.sorted) (here _ (by decide)) (there _ (by decide))
        (fun v w alike => plain _ v w alike _) (fun v w a alike shown => ⟨w.sorted, rfl, v, w, alike, shown, rfl⟩)
        e.data opens.data
      refine ⟨⟨e.code, message, data⟩, ⟨fun name known => ?_, coded, given, filled⟩, rfl, ?_, moved⟩
      · rw [there name known]
        exact opens.once name known
      · generalize e.message = written at said
        cases said with
        | none => rfl
        | some same => rw [same]

end

structure Alike (data : Schema) (e f : Envelope Value) : Prop where
  code : e.code = f.code
  message : e.message = f.message
  data : Option.Rel (fun a b => ∃ v w, Resembles data v w ∧ a = v.sorted ∧ b = w.sorted) e.data f.data

theorem rel_turned {α β : Type} (related : α → β → Prop) (turned : β → α → Prop)
    (turns : ∀ a b, related a b → turned b a) (x : Option α) (y : Option β) (same : Option.Rel related x y) :
    Option.Rel turned y x := by
  cases same with
  | none => exact .none
  | some same => exact .some (turns _ _ same)

section

variable (data : List (String × Schema)) (ms us : List (String × Option Value))
  (moved : Moved (frameSchema data) (fun sch => Option.Rel (Resembles sch)) ms us)
include moved

theorem opens_moved (e : Envelope Value) (opens : Opens ms e) : ∃ f, Opens us f ∧ Alike (.record data) e f := by
  obtain ⟨f, opens, code, message, filled⟩ :=
    opens_carried ms us (fun name => Resembles ((frameSchema data).under name))
      (fun _ v w alike x => resembles_scalar _ v w alike x)
      (fun name _ o member => moved_kept _ _ ms us moved name o member)
      (fun name known => moved_count _ _ ms us moved name known) e opens
  exact ⟨f, opens, code.symm, message.symm, filled⟩

theorem opens_before (f : Envelope Value) (opens : Opens us f) : ∃ e, Opens ms e ∧ Alike (.record data) e f := by
  obtain ⟨e, opens, code, message, filled⟩ :=
    opens_carried us ms (fun name v w => Resembles ((frameSchema data).under name) w v)
      (fun _ v w alike x => (resembles_scalar _ w v alike x).symm)
      (fun name known o member => by
        obtain ⟨o', before, alike⟩ := moved_from _ _ ms us moved name known o member
        exact ⟨o', before, rel_turned _ _ (fun _ _ same => same) _ _ alike⟩)
      (fun name known => (moved_count _ _ ms us moved name known).symm) f opens
  refine ⟨e, opens, code, message, rel_turned _ _ ?_ _ _ filled⟩
  rintro _ _ ⟨w, v, alike, rfl, rfl⟩
  exact ⟨v, w, alike, rfl, rfl⟩

end

-- Two texts come to the same: one message, or errors of one kind about one code, whatever they say of the place.
inductive Agree {μ : Type} : Except FrameError μ → Except FrameError μ → Prop where
  | decoded (m : μ) : Agree (.ok m) (.ok m)
  | malformed (misfit misfit' : Misfit) : Agree (.error (.malformed misfit)) (.error (.malformed misfit'))
  | unknownServerCode (n : UInt64) : Agree (.error (.unknownServerCode n)) (.error (.unknownServerCode n))
  | unknownClientCode (n : UInt64) : Agree (.error (.unknownClientCode n)) (.error (.unknownClientCode n))
  | invalidPayload (n : UInt64) (cause cause' : Cause) :
      Agree (.error (.invalidPayload n cause)) (.error (.invalidPayload n cause'))
  | missingField (n : UInt64) (field : String) :
      Agree (.error (.missingField n field)) (.error (.missingField n field))

theorem payload_alike {π : Type} [Inhabited π] (form : Form π) (sch : Schema) (blind : Blind sch form.ofValue)
    (n : UInt64) (a b : Option Value)
    (alike : Option.Rel (fun a b => ∃ v w, Resembles sch v w ∧ a = v.sorted ∧ b = w.sorted) a b) :
    (∃ p, payload form n a = .ok p ∧ payload form n b = .ok p) ∨ ∃ cause cause',
      payload form n a = .error (.invalidPayload n cause) ∧ payload form n b = .error (.invalidPayload n cause') := by
  cases alike with
  | none => exact .inl ⟨default, rfl, rfl⟩
  | some alike =>
      obtain ⟨v, w, alike, rfl, rfl⟩ := alike
      have same := blind v w alike
      simp only [payload]
      cases here : form.ofValue v.sorted with
      | ok p =>
          rw [(same p).mp here]
          exact .inl ⟨p, rfl, rfl⟩
      | error cause =>
          cases there : form.ofValue w.sorted with
          | ok p => cases here.symm.trans ((same p).mpr there)
          | error cause' => exact .inr ⟨cause, cause', rfl, rfl⟩

theorem server_alike (e f : Envelope Value) (alike : Alike (.record serverNames) e f) :
    Agree (ServerMessage.ofEnvelope e) (ServerMessage.ofEnvelope f) := by
  rw [ServerMessage.ofEnvelope, ServerMessage.ofEnvelope, ← alike.code, ← alike.message]
  cases ServerCode.ofNumber? e.code with
  | none => exact .unknownServerCode e.code
  | some code =>
      obtain ⟨p, here, there⟩ | ⟨cause, cause', here, there⟩ :=
        payload_alike ServerPayload.form _ server_blind e.code e.data f.data alike.data
      · simp only [here, there]
        exact .decoded _
      · simp only [here, there]
        exact .invalidPayload e.code cause cause'

theorem client_alike (e f : Envelope Value) (alike : Alike (.record clientNames) e f) :
    Agree (ClientMessage.ofEnvelope e) (ClientMessage.ofEnvelope f) := by
  rw [ClientMessage.ofEnvelope, ClientMessage.ofEnvelope, ← alike.code]
  cases ClientCode.ofNumber? e.code with
  | none => exact .unknownClientCode e.code
  | some code =>
      obtain ⟨p, here, there⟩ | ⟨cause, cause', here, there⟩ :=
        payload_alike ClientPayload.form _ client_blind e.code e.data f.data alike.data
      · simp only [here, there]
        change Agree ((ClientMessage.ofParts code p).mapError _) ((ClientMessage.ofParts code p).mapError _)
        cases ClientMessage.ofParts code p with
        | ok m => exact .decoded m
        | error field => exact .missingField e.code field
      · simp only [here, there]
        exact .invalidPayload e.code cause cause'

section

variable (ms : List (List Char × Tree)) (u : Tree) (valid : (Tree.object ms).Valid) (once : ¬ (Tree.object ms).Repeats)
  (text text' : String) (laid : Laid (Tree.object ms).tokens text.toList) (laid' : Laid u.tokens text'.toList)
include valid once laid laid'

theorem envelopes_moved (data : List (String × Schema)) (moved : Rearranged (frameSchema data) maxDepth (.object ms) u) :
    (∃ e f, Envelops text e ∧ Envelops text' f ∧ Alike (.record data) e f) ∨
      (∀ e, ¬ Envelops text e) ∧ ∀ f, ¬ Envelops text' f := by
  have valid' := rearranged_valid _ _ _ u moved valid
  cases moved with
  | object _ _ pairs added us names each new order =>
      have seen := entries_moved sight (fun sch => Option.Rel (Resembles sch)) (frameSchema data) pairs added us names
        (fun p member => .some (rearranged_values _ _ _ _ (each p member) fun inside =>
          once (.member _ _ (List.mem_map_of_mem member) inside)))
        (fun m member => ⟨(new m member).new, _, rfl⟩) order
      have here (e : Envelope Value) := envelops_laid (pairs.map Prod.fst) valid text e laid
      have there (f : Envelope Value) := envelops_laid us valid' text' f laid'
      generalize (pairs.map Prod.fst).mapM (Tree.pair? sight) = x at seen here
      generalize us.mapM (Tree.pair? sight) = y at seen there
      cases seen with
      | none =>
          refine .inr ⟨fun e envelops => ?_, fun f envelops => ?_⟩
          · obtain ⟨_, none, _⟩ := (here e).mp envelops
            cases none
          · obtain ⟨_, none, _⟩ := (there f).mp envelops
            cases none
      | @some es fs seen =>
          by_cases opens : ∃ e, Opens es e
          · obtain ⟨e, opens⟩ := opens
            obtain ⟨f, opens', alike⟩ := opens_moved data es fs seen e opens
            exact .inl ⟨e, f, (here e).mpr ⟨es, rfl, opens⟩, (there f).mpr ⟨fs, rfl, opens'⟩, alike⟩
          · refine .inr ⟨fun e envelops => ?_, fun f envelops => ?_⟩
            · obtain ⟨_, same, opens'⟩ := (here e).mp envelops
              cases same
              exact opens ⟨e, opens'⟩
            · obtain ⟨_, same, opens'⟩ := (there f).mp envelops
              cases same
              obtain ⟨e, before, _⟩ := opens_before data es fs seen f opens'
              exact opens ⟨e, before⟩

theorem decoded_moved {μ : Type} (data : List (String × Schema)) (read : Envelope Value → Except FrameError μ)
    (agrees : ∀ e f, Alike (.record data) e f → Agree (read e) (read f))
    (moved : Rearranged (frameSchema data) maxDepth (.object ms) u) :
    Agree (openEnvelope text >>= read) (openEnvelope text' >>= read) := by
  obtain ⟨e, f, here, there, alike⟩ | ⟨none, none'⟩ := envelopes_moved ms u valid once text text' laid laid' data moved
  · rw [(open_envelope text e).mpr here, (open_envelope text' f).mpr there]
    exact agrees e f alike
  · obtain ⟨misfit, failed⟩ := (unopened_iff text).mpr none
    obtain ⟨misfit', failed'⟩ := (unopened_iff text').mpr none'
    rw [failed, failed']
    exact .malformed misfit misfit'

theorem layout_overlooked :
    (Rearranged (frameSchema serverNames) maxDepth (.object ms) u →
      Agree (ServerMessage.decode text) (ServerMessage.decode text')) ∧
    (Rearranged (frameSchema clientNames) maxDepth (.object ms) u →
      Agree (ClientMessage.decode text) (ClientMessage.decode text')) :=
  ⟨decoded_moved ms u valid once text text' laid laid' serverNames _ server_alike,
    decoded_moved ms u valid once text text' laid laid' clientNames _ client_alike⟩

end

def report : List (List Char × Tree) :=
  [("event_code".toList, .leaf ['3']),
    ("data".toList, .object [("game_data".toList, .object [("turn_index".toList, .leaf ['1'])]),
      ("client_id".toList, .leaf "\"b\"".toList)])]

def longReport (game : List (List Char × Tree)) : List (List Char × Tree) :=
  [("data".toList, .object [("client_id".toList, .leaf "\"b\"".toList), ("game_data".toList, .object game)]),
    ("seq".toList, .leaf ['9']), ("event_code".toList, .leaf ['3'])]

def scored : List (List Char × Tree) := [("score".toList, .leaf ['9']), ("turn_index".toList, .leaf ['1'])]

def reportText : String :=
  "\x7b\"event_code\":3,\"data\":\x7b\"game_data\":\x7b\"turn_index\":1\x7d,\"client_id\":\"b\"\x7d\x7d"

def spread (t : Tree) : String := .ofList (t.tokens.flatMap ([' '] ++ ·))

theorem laid_spread (t : Tree) : Laid t.tokens (spread t).toList := by
  rw [spread, String.toList_ofList]
  exact laid_spaced [' '] (by simp [isSpace]) t.tokens

theorem report_laid : Laid (Tree.object report).tokens reportText.toList := by
  have written : reportText.toList = (Tree.object report).tokens.flatMap ([] ++ ·) := by decide +kernel
  rw [written]
  exact laid_spaced [] (List.forall_mem_nil _) _

theorem digit_lexeme (d : Char) (digit : d.isDigit) : Lexeme [d] :=
  .number [] [d] [] [] (by simp) ⟨⟨by simp, by simpa using digit⟩, fun zero => by simpa using zero⟩ (.inl rfl) (.inl rfl)

theorem report_valid : (Tree.object report).Valid := by
  have code : Lexeme ['3'] := digit_lexeme _ (by decide)
  have turn : Lexeme ['1'] := digit_lexeme _ (by decide)
  have client : Lexeme "\"b\"".toList := .text ['b'] (plain_body _ (by decide))
  refine .object _ ?_ ?_ <;> simp only [report, List.forall_mem_cons]
  · exact ⟨plain_body _ (by decide +kernel), plain_body _ (by decide +kernel), List.forall_mem_nil _⟩
  refine ⟨.leaf _ code, .object _ ?_ ?_, List.forall_mem_nil _⟩ <;> simp only [List.forall_mem_cons]
  · exact ⟨plain_body _ (by decide +kernel), plain_body _ (by decide +kernel), List.forall_mem_nil _⟩
  refine ⟨.object _ ?_ ?_, .leaf _ client, List.forall_mem_nil _⟩ <;> simp only [List.forall_mem_cons]
  · exact ⟨plain_body _ (by decide +kernel), List.forall_mem_nil _⟩
  · exact ⟨.leaf _ turn, List.forall_mem_nil _⟩

theorem report_once : ¬ (Tree.object report).Repeats := by
  simp only [report, repeats_object, leaf_once, List.exists_mem_cons_iff, List.not_mem_nil, false_and, exists_false,
    or_false, false_or, not_or, not_not]
  decide +kernel

theorem nine_added (name : List Char) (sch : Schema) (d : Nat) (plain : Body name)
    (new : ∃ k, name? name = some k ∧ ¬ sch.Defines k) : Addition sch d (name, .leaf ['9']) := by
  refine ⟨plain, .leaf _ (digit_lexeme _ (by decide)), new, .ofNat 9, ?_⟩
  cases d <;> rfl

theorem report_rearranged (data : List (String × Schema)) (game : List (List Char × Tree))
    (moved : Rearranged ((Schema.record data).under "game_data") (maxDepth - 2)
      (.object [("turn_index".toList, .leaf ['1'])]) (.object game)) :
    Rearranged (frameSchema data) maxDepth (.object report) (.object (longReport game)) := by
  have inside : (frameSchema data).atName "data".toList = .record data := Schema.at_name _ _ "data" (by decide +kernel)
  refine .object _ _ [((_, .leaf _), (_, .leaf _)), ((_, .object _), (_, .object _))] [("seq".toList, .leaf ['9'])]
    _ ?_ ?_ ?_ (@List.perm_append_comm _ [_, _] [_]) <;> simp only [List.forall_mem_cons]
  · exact ⟨trivial, trivial, List.forall_mem_nil _⟩
  · refine ⟨.leaf _ _ _, ?_, List.forall_mem_nil _⟩
    rw [inside]
    refine .object _ _ [((_, .object _), (_, .object _)), ((_, .leaf _), (_, .leaf _))] [] _ ?_ ?_ (List.forall_mem_nil _) (.swap _ _ _) <;>
      simp only [List.forall_mem_cons]
    · exact ⟨trivial, trivial, List.forall_mem_nil _⟩
    · refine ⟨?_, .leaf _ _ _, List.forall_mem_nil _⟩
      rw [Schema.at_name _ _ "game_data" (by decide +kernel)]
      exact moved
  · have new : ¬ (frameSchema data).Defines "seq" := by
      change "seq" ∉ envelopeNames
      decide
    exact ⟨nine_added _ _ _ (plain_body _ (by decide +kernel)) ⟨"seq", by decide +kernel, new⟩, List.forall_mem_nil _⟩

theorem report_scored : Rearranged (.record gameNames) (maxDepth - 2)
    (.object [("turn_index".toList, .leaf ['1'])]) (.object scored) := by
  refine .object _ _ [((_, .leaf _), (_, .leaf _))] [("score".toList, .leaf ['9'])] _ ?_ ?_ ?_ (.swap _ _ _) <;>
    simp only [List.forall_mem_cons]
  · exact ⟨trivial, List.forall_mem_nil _⟩
  · exact ⟨.leaf _ _ _, List.forall_mem_nil _⟩
  · exact ⟨nine_added _ _ _ (plain_body _ (by decide +kernel)) ⟨"score", by decide +kernel, by decide +kernel⟩, List.forall_mem_nil _⟩

theorem report_unscored : Rearranged .any (maxDepth - 2)
    (.object [("turn_index".toList, .leaf ['1'])]) (.object [("turn_index".toList, .leaf ['1'])]) := by
  refine .object _ _ [((_, .leaf _), (_, .leaf _))] [] _ ?_ ?_ (List.forall_mem_nil _) (.refl _) <;> simp only [List.forall_mem_cons]
  · exact ⟨trivial, List.forall_mem_nil _⟩
  · exact ⟨.leaf _ _ _, List.forall_mem_nil _⟩

theorem long_report_overlooked :
    ServerMessage.decode reportText = .ok (.gameStarted ⟨1, [], []⟩) ∧
    Agree (ServerMessage.decode reportText) (ServerMessage.decode (spread (.object (longReport scored)))) ∧
    ClientMessage.decode reportText = .ok .leaveSession ∧
    Agree (ClientMessage.decode reportText)
      (ClientMessage.decode (spread (.object (longReport [("turn_index".toList, .leaf ['1'])])))) := by
  refine ⟨by decide +kernel, ?_, by decide +kernel, ?_⟩
  · exact (layout_overlooked report _ report_valid report_once _ _ report_laid (laid_spread _)).1
      (report_rearranged serverNames scored report_scored)
  · exact (layout_overlooked report _ report_valid report_once _ _ report_laid (laid_spread _)).2
      (report_rearranged clientNames _ report_unscored)

end DarkDrop.Wire
