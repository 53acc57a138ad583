import DarkDrop.Wire.Message
import DarkDrop.Proofs.Json.Carried

namespace DarkDrop.Wire
open Json

theorem snapshot_lawful : Snapshot.record.Lawful := by
  have texts := list_follows .text text_follows
  have columns := list_follows _ (list_follows _ (count_follows "u64"))
  refine ⟨?_, ?_, ?_, ?_⟩
  · simp only [Snapshot.record, List.forall_mem_cons]
    exact ⟨rfl, rfl, rfl, nofun⟩
  · simp only [Snapshot.record, List.forall_mem_cons]
    refine ⟨?_, ?_, ?_, nofun⟩
    all_goals exact of_fills _ _ _ _ fun _ _ => rfl
  · simp only [Snapshot.record, List.pairwise_cons, List.forall_mem_cons]
    refine ⟨⟨?_, ?_, nofun⟩, ⟨?_, nofun⟩, nofun, .nil⟩
    all_goals exact of_apart _ _ _ _ _ _ _ _ (by decide) (fun _ _ => rfl) (fun _ _ => rfl) fun _ _ _ => rfl
  · simp only [Snapshot.record, List.forall_mem_cons]
    exact ⟨of_follows _ _ _ _ (count_follows _), of_follows _ _ _ _ texts, of_follows _ _ _ _ columns, nofun⟩

theorem server_lawful : ServerPayload.record.Lawful := by
  have text := optional_follows .text text_follows
  have texts := optional_follows _ (list_follows .text text_follows)
  have game := optional_follows _ (record_follows Snapshot.record snapshot_lawful)
  refine ⟨?_, ?_, ?_, ?_⟩
  · simp only [ServerPayload.record, List.forall_mem_cons]
    exact ⟨rfl, rfl, rfl, rfl, nofun⟩
  · simp only [ServerPayload.record, List.forall_mem_cons]
    refine ⟨?_, ?_, ?_, ?_, nofun⟩
    all_goals exact of_fills _ _ _ _ fun _ _ => rfl
  · simp only [ServerPayload.record, List.pairwise_cons, List.forall_mem_cons]
    refine ⟨⟨?_, ?_, ?_, nofun⟩, ⟨?_, ?_, nofun⟩, ⟨?_, nofun⟩, nofun, .nil⟩
    all_goals exact of_apart _ _ _ _ _ _ _ _ (by decide) (fun _ _ => rfl) (fun _ _ => rfl) fun _ _ _ => rfl
  · simp only [ServerPayload.record, List.forall_mem_cons]
    exact ⟨of_follows _ _ _ _ text, of_follows _ _ _ _ text, of_follows _ _ _ _ texts,
      of_follows _ _ _ _ game, nofun⟩

theorem client_lawful : ClientPayload.record.Lawful := by
  have text := optional_follows .text text_follows
  have column := optional_follows _ (count_follows "usize")
  have texts := optional_follows _ (list_follows .text text_follows)
  refine ⟨?_, ?_, ?_, ?_⟩
  · simp only [ClientPayload.record, List.forall_mem_cons]
    exact ⟨rfl, rfl, rfl, nofun⟩
  · simp only [ClientPayload.record, List.forall_mem_cons]
    refine ⟨?_, ?_, ?_, nofun⟩
    all_goals exact of_fills _ _ _ _ fun _ _ => rfl
  · simp only [ClientPayload.record, List.pairwise_cons, List.forall_mem_cons]
    refine ⟨⟨?_, ?_, nofun⟩, ⟨?_, nofun⟩, nofun, .nil⟩
    all_goals exact of_apart _ _ _ _ _ _ _ _ (by decide) (fun _ _ => rfl) (fun _ _ => rfl) fun _ _ _ => rfl
  · simp only [ClientPayload.record, List.forall_mem_cons]
    exact ⟨of_follows _ _ _ _ text, of_follows _ _ _ _ column, of_follows _ _ _ _ texts, nofun⟩

namespace Envelope

def codeField (δ : Type) : Json.Field (Draft δ) :=
  .of "event_code" (·.code) (fun d x => { d with code := some x }) (.count "u64")

def messageField (δ : Type) : Json.Field (Draft δ) :=
  .of "message" (·.message) (fun d x => { d with message := some x }) (.optional .text)

def dataField {δ : Type} (data : Form δ) : Json.Field (Draft δ) :=
  .of "data" (·.data) (fun d x => { d with data := some x }) (.optional data)

theorem field_cases {δ : Type} (data : Form δ) (k : String) :
    (k = "event_code" ∧ (record data).field? k = some (codeField δ)) ∨
      (k = "message" ∧ (record data).field? k = some (messageField δ)) ∨
      (k = "data" ∧ (record data).field? k = some (dataField data)) ∨
      (k ∉ ["event_code", "message", "data"] ∧ (record data).field? k = none) := by
  by_cases code : k = "event_code"
  · exact .inl ⟨code, by rw [code]; rfl⟩
  · by_cases message : k = "message"
    · exact .inr (.inl ⟨message, by rw [message]; rfl⟩)
    · by_cases body : k = "data"
      · exact .inr (.inr (.inl ⟨body, by rw [body]; rfl⟩))
      · refine .inr (.inr (.inr ⟨by simp [code, message, body], ?_⟩))
        simp [Record.field?, record, Field.of, Ne.symm code, Ne.symm message, Ne.symm body]

theorem complete_whole {δ : Type} (data : Form δ) (x : Draft δ) (e : Envelope δ) :
    (record data).complete x = .ok e ↔
      ∃ code, x.code = some code ∧ e = ⟨code, x.message.join, x.data.join⟩ := by
  simp only [record]
  cases x.code with
  | none => simp
  | some code => simp [eq_comm]

theorem rel_join {α β : Type} (like : α → β → Prop) (a : Option (Option α)) (b : Option (Option β))
    (pair : Option.Rel (Option.Rel like) a b) : Option.Rel like a.join b.join := by
  cases pair with
  | none => exact .none
  | some pair => exact pair

structure Alike {δ ε : Type} (like : δ → ε → Prop) (e : Envelope δ) (f : Envelope ε) : Prop where
  code : f.code = e.code
  message : f.message = e.message
  data : Option.Rel like e.data f.data

structure Draft.Alike {δ ε : Type} (like : δ → ε → Prop) (x : Draft δ) (y : Draft ε) : Prop where
  code : y.code = x.code
  message : y.message = x.message
  data : Option.Rel (Option.Rel like) x.data y.data

def Draft.Sound {δ : Type} (good : δ → Prop) (x : Draft δ) : Prop := ∀ v, x.data = some (some v) → good v

section

variable {δ ε : Type} (data : Form δ) (other : Form ε) (like : δ → ε → Prop) (good : δ → Prop)

structure Paired (f : Json.Field (Draft δ)) (g : Json.Field (Draft ε)) : Prop where
  filled : ∀ x y, Draft.Alike like x y → g.filled y = f.filled x
  back : ∀ x next s r, f.filled x = false → (f.read x).run s = .ok (next, r) → Draft.Sound good next →
    Draft.Sound good x
  forth : ∀ x y next s r, Draft.Alike like x y → (f.read x).run s = .ok (next, r) → Draft.Sound good next →
    ∃ z, (g.read y).run s = .ok (z, r) ∧ Draft.Alike like next z

theorem code_forth (x next : Draft δ) (y : Draft ε) (s r : List Char) (alike : Draft.Alike like x y)
    (read : ((codeField δ).read x).run s = .ok (next, r)) :
    ∃ z, ((codeField ε).read y).run s = .ok (z, r) ∧ Draft.Alike like next z := by
  obtain ⟨code, value, rfl⟩ := (map_ok _ _ s r next).mp read
  exact ⟨_, (map_ok _ _ s r _).mpr ⟨code, value, rfl⟩, rfl, alike.message, alike.data⟩

theorem message_forth (x next : Draft δ) (y : Draft ε) (s r : List Char) (alike : Draft.Alike like x y)
    (read : ((messageField δ).read x).run s = .ok (next, r)) :
    ∃ z, ((messageField ε).read y).run s = .ok (z, r) ∧ Draft.Alike like next z := by
  obtain ⟨message, value, rfl⟩ := (map_ok _ _ s r next).mp read
  exact ⟨_, (map_ok _ _ s r _).mpr ⟨message, value, rfl⟩, alike.code, rfl, alike.data⟩

theorem code_paired : Paired like good (codeField δ) (codeField ε) := by
  refine ⟨?_, ?_, fun x y next s r alike read _ => code_forth like x next y s r alike read⟩
  · intro x y alike
    simp [codeField, Field.of, alike.code]
  · intro x next s r _ read sound
    obtain ⟨code, _, rfl⟩ := (map_ok _ _ s r next).mp read
    exact sound

theorem message_paired : Paired like good (messageField δ) (messageField ε) := by
  refine ⟨?_, ?_, fun x y next s r alike read _ => message_forth like x next y s r alike read⟩
  · intro x y alike
    simp [messageField, Field.of, alike.message]
  · intro x next s r _ read sound
    obtain ⟨message, _, rfl⟩ := (map_ok _ _ s r next).mp read
    exact sound

theorem paired_member (f : Json.Field (Draft δ)) (g : Json.Field (Draft ε))
    (paired : Paired like good f g) (k : String) (found : (record data).field? k = some f)
    (found' : (record other).field? k = some g)
    (x next : Draft δ) (s r : List Char) (read : ((record data).readMember x k).run s = .ok (next, r))
    (sound : Draft.Sound good next) : Draft.Sound good x ∧ ∀ y, Draft.Alike like x y →
      ∃ z, ((record other).readMember y k).run s = .ok (z, r) ∧ Draft.Alike like next z := by
  obtain ⟨vacant, value⟩ := (member_known _ x next k s r f found).mp read
  obtain ⟨text, colon, value⟩ := (after_colon _ s r next).mp value
  refine ⟨paired.back x next text r vacant value sound, fun y alike => ?_⟩
  obtain ⟨z, value', pair⟩ := paired.forth x y next text r alike value sound
  refine ⟨z, (member_known _ y z k s r g found').mpr ⟨?_, ?_⟩, pair⟩
  · rw [paired.filled x y alike, vacant]
  · exact (after_colon _ s r z).mpr ⟨text, colon, value'⟩

variable (carried : ∀ s r a, data.read.run s = .ok (a, r) → good a →
  ∃ b, other.read.run s = .ok (b, r) ∧ like a b)
include carried

theorem data_forth (x next : Draft δ) (y : Draft ε) (s r : List Char) (alike : Draft.Alike like x y)
    (sound : Draft.Sound good next) (read : ((dataField data).read x).run s = .ok (next, r)) :
    ∃ z, ((dataField other).read y).run s = .ok (z, r) ∧ Draft.Alike like next z := by
  obtain ⟨body, value, rfl⟩ := (map_ok _ _ s r next).mp read
  obtain ⟨body', value', pair⟩ := optional_carried data other like good carried s r body value
    fun v full => sound v (congrArg some full)
  exact ⟨_, (map_ok _ _ s r _).mpr ⟨body', value', rfl⟩, alike.code, alike.message, .some pair⟩

theorem data_paired : Paired like good (dataField data) (dataField other) := by
  refine ⟨?_, ?_, fun x y next s r alike read sound =>
    data_forth data other like good carried x next y s r alike sound read⟩
  · intro x y alike
    have same := alike.data
    simp only [dataField, Field.of]
    generalize x.data = a at same
    generalize y.data = b at same
    cases same <;> rfl
  · intro x next s r vacant read _ v full
    simp [dataField, Field.of, full] at vacant

theorem member_carried (x next : Draft δ) (k : String) (s r : List Char)
    (read : ((record data).readMember x k).run s = .ok (next, r)) (sound : Draft.Sound good next) :
    Draft.Sound good x ∧ ∀ y, Draft.Alike like x y →
      ∃ z, ((record other).readMember y k).run s = .ok (z, r) ∧ Draft.Alike like next z := by
  have paired := paired_member data other like good
  obtain ⟨rfl, found⟩ | ⟨rfl, found⟩ | ⟨rfl, found⟩ | ⟨unnamed, missing⟩ := field_cases data k
  · exact paired _ _ (code_paired like good) _ found rfl x next s r read sound
  · exact paired _ _ (message_paired like good) _ found rfl x next s r read sound
  · exact paired _ _ (data_paired data other like good carried) _ found rfl x next s r read sound
  · obtain ⟨rfl, passed⟩ := (member_unknown _ x next k s r missing).mp read
    have missing' : (record other).field? k = none := by
      obtain ⟨rfl, _⟩ | ⟨rfl, _⟩ | ⟨rfl, _⟩ | ⟨_, missing'⟩ := field_cases other k
      · exact absurd (by simp) unnamed
      · exact absurd (by simp) unnamed
      · exact absurd (by simp) unnamed
      · exact missing'
    exact ⟨sound, fun y alike => ⟨y, (member_unknown _ y y k s r missing').mpr ⟨rfl, passed⟩, alike⟩⟩

theorem envelope_carried (s r : List Char) (e : Envelope δ) (read : (form data).read.run s = .ok (e, r))
    (sound : ∀ v, e.data = some v → good v) :
    ∃ f, (form other).read.run s = .ok (f, r) ∧ Alike like e f := by
  refine record_carried (Draft.Alike like) (Draft.Sound good) (record data) (record other) (Alike like)
    ?_ (member_carried data other like good carried) ?_ ?_ s r e read ?_
  · refine carries_field _ _ (codeField δ) (codeField ε) _ _ ?_ ?_
    · exact fun x y next s r alike _ read => code_forth like x next y s r alike read
    · refine carries_field _ _ (messageField δ) (messageField ε) _ _ ?_ ?_
      · exact fun x y next s r alike _ read => message_forth like x next y s r alike read
      · refine carries_field _ _ (dataField data) (dataField other) _ _ ?_ (carries_end _ _)
        exact fun x y next s r alike last read =>
          data_forth data other like good carried x next y s r alike (last rfl) read
  · exact ⟨rfl, rfl, .none⟩
  · intro x y e alike whole
    obtain ⟨code, known, rfl⟩ := (complete_whole data x e).mp whole
    refine ⟨_, (complete_whole other y _).mpr ⟨code, alike.code.trans known, rfl⟩, rfl, ?_, ?_⟩
    · exact congrArg Option.join alike.message
    · exact rel_join like x.data y.data alike.data
  · intro x whole v full
    obtain ⟨code, _, rfl⟩ := (complete_whole data x e).mp whole
    exact sound v (by simp [full])

end

end Envelope

def direct {π : Type} (form : Form π) (text : String) : Except Misfit (Envelope π) :=
  (Envelope.form form).read.readAll text.toList

def written (text : String) : Except Misfit (Envelope Value) :=
  direct ⟨asWritten (maxDepth - 1), .ok⟩ text

-- The data of a frame, or an object somewhere inside it, gives two members one name.
def DataRepeats (text : String) : Prop := ∃ e v, written text = .ok e ∧ e.data = some v ∧ v.Repeats

theorem read_all_ok {α : Type} (rd : Reader α) (text : List Char) (a : α) :
    rd.readAll text = .ok a ↔ ∃ r, rd.run text = .ok (a, r) ∧ finish r = .ok () := by
  rw [Reader.readAll]
  split
  · rename_i failed
    simp [failed]
  · rename_i b rest read
    simp only [read, Except.ok.injEq, Prod.mk.injEq]
    split
    · rename_i ended
      constructor
      · nofun
      · rintro ⟨r, ⟨rfl, rfl⟩, fine⟩
        rw [ended] at fine
        cases fine
    · rename_i ended
      constructor
      · intro same
        cases same
        exact ⟨rest, ⟨rfl, rfl⟩, ended⟩
      · rintro ⟨r, ⟨rfl, rfl⟩, _⟩
        rfl

theorem direct_carried {δ ε : Type} (data : Form δ) (other : Form ε) (like : δ → ε → Prop) (good : δ → Prop)
    (carried : ∀ s r a, data.read.run s = .ok (a, r) → good a →
      ∃ b, other.read.run s = .ok (b, r) ∧ like a b)
    (text : String) (e : Envelope δ) (read : direct data text = .ok e) (sound : ∀ v, e.data = some v → good v) :
    ∃ f, direct other text = .ok f ∧ Envelope.Alike like e f := by
  obtain ⟨r, read, ended⟩ := (read_all_ok _ _ _).mp read
  obtain ⟨f, read', alike⟩ := Envelope.envelope_carried data other like good carried _ r e read sound
  exact ⟨f, (read_all_ok _ _ _).mpr ⟨r, read', ended⟩, alike⟩

theorem opened_direct (text : String) (e : Envelope Value) :
    openEnvelope text = .ok e ↔ direct (.any (maxDepth - 1)) text = .ok e :=
  map_error_ok _ _ e

theorem opened_written (text : String) (e : Envelope Value) (opened : openEnvelope text = .ok e) :
    ∃ w, written text = .ok w ∧ Envelope.Alike (fun v u => v = u.sorted) e w := by
  refine direct_carried _ _ _ (fun _ => True) ?_ text e ((opened_direct text e).mp opened) fun _ _ => trivial
  intro s r v read _
  exact (any_as_written (maxDepth - 1) s r v).mp read

def either {α : Type} (rd other : Reader α) : Reader α where
  run s := match rd.run s with
    | .ok p => .ok p
    | .error _ => other.run s
  shorter {s a r} h := by
    split at h
    · rename_i read
      cases h
      exact rd.shorter read
    · exact other.shorter h

theorem either_first {α : Type} (rd other : Reader α) (s r : List Char) (a : α)
    (read : rd.run s = .ok (a, r)) : (either rd other).run s = .ok (a, r) := by
  simp only [either, read]

section

variable {π : Type} (form : Form π)

def taken? (v : Value) : Option π := (form.ofValue v.sorted).toOption

theorem taken_some (v : Value) (p : π) : taken? form v = some p ↔ form.ofValue v.sorted = .ok p := by
  rw [taken?]
  cases form.ofValue v.sorted <;> simp [Except.toOption]

-- Where the two ways meet: the data as the form reads it, and else as it takes the written value.
def meeting : Form (Option π) where
  read := either (form.read.map some) ((asWritten (maxDepth - 1)).map (taken? form))
  ofValue _ := .ok none

theorem meeting_read (s r : List Char) (p : π) (read : form.read.run s = .ok (p, r)) :
    (meeting form).read.run s = .ok (some p, r) := by
  apply either_first
  exact (map_ok _ _ s r _).mpr ⟨p, read, rfl⟩

theorem meeting_written (follows : Follows form.read form.ofValue) (s r : List Char) (v : Value)
    (value : (asWritten (maxDepth - 1)).run s = .ok (v, r)) :
    (meeting form).read.run s = .ok (taken? form v, r) := by
  cases found : form.read.run s with
  | ok p =>
      obtain ⟨p, rest⟩ := p
      obtain ⟨rfl, taken⟩ := follows.agrees _ s r rest v p value found
      rw [(taken_some form v p).mpr taken]
      exact meeting_read form s rest p found
  | error e => simp only [meeting, either, Reader.map, found, value]

theorem data_met (a : Option Value) (b : Option π) (c : Option (Option π))
    (here : Option.Rel (fun p o => o = some p) b c) (there : Option.Rel (fun v o => o = taken? form v) a c) :
    Option.Rel (fun v p => form.ofValue v.sorted = .ok p) a b := by
  cases here with
  | none =>
      cases there
      exact .none
  | some read =>
      cases there with
      | some taken => exact .some ((taken_some form _ _).mp (taken.symm.trans read))

variable (follows : Follows form.read form.ofValue)
include follows

theorem written_direct (text : String) (w : Envelope Value) (f : Envelope π) (whole : written text = .ok w)
    (read : direct form text = .ok f) :
    Envelope.Alike (fun v p => form.ofValue v.sorted = .ok p) w f := by
  obtain ⟨j, first, fromRead⟩ :=
    direct_carried form (meeting form) (fun p o => o = some p) (fun _ => True)
      (fun s r p read _ => ⟨some p, meeting_read form s r p read, rfl⟩) text f read fun _ _ => trivial
  obtain ⟨_, second, fromWhole⟩ :=
    direct_carried _ (meeting form) (fun v o => o = taken? form v) (fun _ => True)
      (fun s r v value _ => ⟨_, meeting_written form follows s r v value, rfl⟩) text w whole fun _ _ => trivial
  cases first.symm.trans second
  exact ⟨fromRead.code.symm.trans fromWhole.code, fromRead.message.symm.trans fromWhole.message,
    data_met form _ _ _ fromRead.data fromWhole.data⟩

theorem direct_written (text : String) (w : Envelope Value) (whole : written text = .ok w)
    (each : ∀ v, w.data = some v → ¬ v.Repeats ∧ ∃ p, form.ofValue v.sorted = .ok p) :
    ∃ f, direct form text = .ok f := by
  have carried : ∀ s r v, (asWritten (maxDepth - 1)).run s = .ok (v, r) →
      (¬ v.Repeats ∧ ∃ p, form.ofValue v.sorted = .ok p) → ∃ p, form.read.run s = .ok (p, r) ∧ True := by
    rintro s r v value ⟨once, p, taken⟩
    exact ⟨p, follows.reads _ s r v p value once taken, trivial⟩
  obtain ⟨f, read, _⟩ := direct_carried _ form (fun _ _ => True) _ carried text w whole each
  exact ⟨f, read⟩

variable [Inhabited π] (text : String) (e : Envelope Value) (opened : openEnvelope text = .ok e)
include opened

theorem payload_direct (f : Envelope π) (read : direct form text = .ok f) :
    f.code = e.code ∧ f.message = e.message ∧ payload form e.code e.data = .ok (f.data.getD default) := by
  obtain ⟨w, whole, sorted⟩ := opened_written text e opened
  have alike := written_direct form follows text w f whole read
  refine ⟨alike.code.trans sorted.code, alike.message.trans sorted.message, ?_⟩
  have here := alike.data
  have there := sorted.data
  generalize e.data = a at there
  generalize f.data = b at here
  generalize w.data = c at here there
  cases here with
  | none =>
      cases there
      rfl
  | some taken =>
      cases there with
      | some same =>
          subst same
          simp only [payload, taken]
          rfl

theorem direct_payload (p : π) (taken : payload form e.code e.data = .ok p) (once : ¬ DataRepeats text) :
    ∃ f, direct form text = .ok f := by
  obtain ⟨w, whole, sorted⟩ := opened_written text e opened
  refine direct_written form follows text w whole fun v full => ?_
  refine ⟨fun twice => once ⟨w, v, whole, full, twice⟩, ?_⟩
  have same := sorted.data
  rw [full] at same
  generalize e.data = a at same taken
  cases same with
  | some same =>
      subst same
      exact ⟨p, (map_error_ok _ _ p).mp taken⟩

end

inductive ServerBuilt (text : Option String) (p : ServerPayload) : UInt64 → ServerMessage → Prop where
  | joined : ServerBuilt text p 1
      (.clientJoined (p.clientId.getD "") (p.sessionId.getD "") (p.members.getD []))
  | left : ServerBuilt text p 2
      (.clientLeft (p.clientId.getD "") (p.sessionId.getD "") (p.members.getD []))
  | started : ServerBuilt text p 3 (.gameStarted (p.game.getD ⟨0, [], []⟩))
  | responded : ServerBuilt text p 4
      (.sessionResponse (p.sessionId.getD "") (p.members.getD []) p.game)
  | turned : ServerBuilt text p 5 (.turnStart (p.game.getD ⟨0, [], []⟩))
  | erred : ServerBuilt text p 6 (.logicError (text.getD ""))
  | inProgress : ServerBuilt text p 7 .cannotJoinInProgress
  | ended : ServerBuilt text p 8
      (.gameEnded (p.clientId.getD "") ((p.game.map (·.playIndexes)).getD []))

inductive ClientBuilt (p : ClientPayload) : UInt64 → ClientMessage → Prop where
  | joins (room : String) (named : p.sessionId = some room) : ClientBuilt p 1 (.joinSession room)
  | creates : ClientBuilt p 2 .createSession
  | leaves : ClientBuilt p 3 .leaveSession
  | asks : ClientBuilt p 4 .sessionRequest
  | starts : ClientBuilt p 5 .startGame
  | plays (column : UInt64) (named : p.column = some column) : ClientBuilt p 6 (.play column)

theorem server_built (text : Option String) (p : ServerPayload) (n : UInt64) (code : ServerCode)
    (known : ServerCode.ofNumber? n = some code) : ServerBuilt text p n (ServerMessage.ofParts code text p) := by
  rw [← ServerCode.toNumber_of_ofNumber? known]
  cases code with
  | clientJoined => exact .joined
  | clientLeft => exact .left
  | gameStarted => exact .started
  | sessionResponse => exact .responded
  | turnStart => exact .turned
  | logicError => exact .erred
  | cannotJoinInProgress => exact .inProgress
  | gameEnded => exact .ended

theorem client_built (p : ClientPayload) (n : UInt64) (code : ClientCode) (m : ClientMessage)
    (known : ClientCode.ofNumber? n = some code) (parts : ClientMessage.ofParts code p = .ok m) :
    ClientBuilt p n m := by
  rw [← ClientCode.toNumber_of_ofNumber? known]
  cases code with
  | joinSession =>
      rw [ClientMessage.ofParts] at parts
      cases room : p.sessionId with
      | none =>
          rw [room] at parts
          cases parts
      | some s =>
          rw [room] at parts
          cases parts
          exact .joins s room
  | play =>
      rw [ClientMessage.ofParts] at parts
      cases column : p.column with
      | none =>
          rw [column] at parts
          cases parts
      | some c =>
          rw [column] at parts
          cases parts
          exact .plays c column
  | createSession =>
      cases parts
      exact .creates
  | leaveSession =>
      cases parts
      exact .leaves
  | sessionRequest =>
      cases parts
      exact .asks
  | startGame =>
      cases parts
      exact .starts

structure ServerAgreement (text : String) : Prop where
  agrees : ∀ m f, ServerMessage.decode text = .ok m → direct ServerPayload.form text = .ok f →
    ServerBuilt f.message (f.data.getD {}) f.code m
  repeats : ∀ m x, ServerMessage.decode text = .ok m → direct ServerPayload.form text = .error x →
    DataRepeats text
  malformed : ∀ f code x, direct ServerPayload.form text = .ok f → ServerCode.ofNumber? f.code = some code →
    ServerMessage.decode text = .error x → ∃ misfit, x = .malformed misfit

structure ClientAgreement (text : String) : Prop where
  agrees : ∀ m f, ClientMessage.decode text = .ok m → direct ClientPayload.form text = .ok f →
    ClientBuilt (f.data.getD {}) f.code m
  repeats : ∀ m x, ClientMessage.decode text = .ok m → direct ClientPayload.form text = .error x →
    DataRepeats text
  malformed : ∀ f code x, direct ClientPayload.form text = .ok f → ClientCode.ofNumber? f.code = some code →
    ClientMessage.decode text = .error x →
      (∃ misfit, x = .malformed misfit) ∨ ∃ field, x = .missingField f.code field

theorem server_form_follows : Follows ServerPayload.form.read ServerPayload.form.ofValue :=
  record_follows ServerPayload.record server_lawful

theorem client_form_follows : Follows ClientPayload.form.read ClientPayload.form.ofValue :=
  record_follows ClientPayload.record client_lawful

theorem server_decoded (text : String) (m : ServerMessage) (decoded : ServerMessage.decode text = .ok m) :
    ∃ e code p, openEnvelope text = .ok e ∧ ServerCode.ofNumber? e.code = some code ∧
      payload ServerPayload.form e.code e.data = .ok p ∧ m = ServerMessage.ofParts code e.message p := by
  obtain ⟨e, opened, decoded⟩ := (bound_ok _ _ m).mp decoded
  rw [ServerMessage.ofEnvelope] at decoded
  split at decoded
  · cases decoded
  · rename_i code known
    obtain ⟨p, taken, same⟩ := (bound_ok _ _ m).mp decoded
    cases same
    exact ⟨e, code, p, opened, known, taken, rfl⟩

theorem client_decoded (text : String) (m : ClientMessage) (decoded : ClientMessage.decode text = .ok m) :
    ∃ e code p, openEnvelope text = .ok e ∧ ClientCode.ofNumber? e.code = some code ∧
      payload ClientPayload.form e.code e.data = .ok p ∧ ClientMessage.ofParts code p = .ok m := by
  obtain ⟨e, opened, decoded⟩ := (bound_ok _ _ m).mp decoded
  rw [ClientMessage.ofEnvelope] at decoded
  split at decoded
  · cases decoded
  · rename_i code known
    obtain ⟨p, taken, parts⟩ := (bound_ok _ _ m).mp decoded
    exact ⟨e, code, p, opened, known, taken, (map_error_ok _ _ m).mp parts⟩

theorem unopened (text : String) (x : FrameError) (failed : openEnvelope text = .error x) :
    ∃ misfit, x = .malformed misfit := by
  rw [openEnvelope] at failed
  cases read : (Envelope.form (.any (maxDepth - 1))).read.readAll text.toList with
  | ok e =>
      rw [read] at failed
      cases failed
  | error misfit =>
      rw [read] at failed
      cases failed
      exact ⟨misfit, rfl⟩

theorem server_agrees (text : String) : ServerAgreement text := by
  refine ⟨?_, ?_, ?_⟩
  · intro m f decoded read
    obtain ⟨e, code, p, opened, known, taken, rfl⟩ := server_decoded text m decoded
    obtain ⟨same, message, value⟩ := payload_direct _ server_form_follows text e opened f read
    cases taken.symm.trans value
    rw [← message]
    exact server_built f.message _ f.code code (by rw [same, known])
  · intro m x decoded failed
    obtain ⟨e, code, p, opened, known, taken, rfl⟩ := server_decoded text m decoded
    by_contra once
    obtain ⟨f, read⟩ := direct_payload _ server_form_follows text e opened p taken once
    cases failed.symm.trans read
  · intro f code x read known failed
    cases opened : openEnvelope text with
    | error y =>
        rw [ServerMessage.decode, opened] at failed
        cases failed
        exact unopened text x opened
    | ok e =>
        obtain ⟨same, _, value⟩ := payload_direct _ server_form_follows text e opened f read
        rw [ServerMessage.decode, opened] at failed
        change ServerMessage.ofEnvelope e = _ at failed
        rw [ServerMessage.ofEnvelope, ← same, known, same, value] at failed
        cases failed

theorem client_agrees (text : String) : ClientAgreement text := by
  refine ⟨?_, ?_, ?_⟩
  · intro m f decoded read
    obtain ⟨e, code, p, opened, known, taken, parts⟩ := client_decoded text m decoded
    obtain ⟨same, _, value⟩ := payload_direct _ client_form_follows text e opened f read
    cases taken.symm.trans value
    exact client_built _ f.code code m (by rw [same, known]) parts
  · intro m x decoded failed
    obtain ⟨e, code, p, opened, known, taken, _⟩ := client_decoded text m decoded
    by_contra once
    obtain ⟨f, read⟩ := direct_payload _ client_form_follows text e opened p taken once
    cases failed.symm.trans read
  · intro f code x read known failed
    cases opened : openEnvelope text with
    | error y =>
        rw [ClientMessage.decode, opened] at failed
        cases failed
        exact .inl (unopened text x opened)
    | ok e =>
        obtain ⟨same, _, value⟩ := payload_direct _ client_form_follows text e opened f read
        rw [ClientMessage.decode, opened] at failed
        change ClientMessage.ofEnvelope e = _ at failed
        rw [ClientMessage.ofEnvelope, ← same, known, same, value] at failed
        change (ClientMessage.ofParts code _).mapError _ = _ at failed
        cases parts : ClientMessage.ofParts code (f.data.getD default) with
        | ok m =>
            rw [parts] at failed
            cases failed
        | error field =>
            rw [parts] at failed
            cases failed
            exact .inr ⟨field, by rw [same]⟩

theorem readers_agree (text : String) : ServerAgreement text ∧ ClientAgreement text :=
  ⟨server_agrees text, client_agrees text⟩

theorem ended_and_played_alike :
    let ended := "\x7b\"event_code\":8,\"data\":\x7b\"client_id\":\"eve\",\"game_data\":" ++
      "\x7b\"turn_index\":1,\"play_indexes\":[[1,2],[]]\x7d,\"x\":null\x7d\x7d"
    let played := "\x7b\"data\":\x7b\"session_id\":null,\"column\":3\x7d,\"event_code\":6\x7d"
    (∃ m f, ServerMessage.decode ended = .ok m ∧ direct ServerPayload.form ended = .ok f ∧
      ServerBuilt f.message (f.data.getD {}) f.code m ∧ m = .gameEnded "eve" [[1, 2], []]) ∧
    ∃ m f, ClientMessage.decode played = .ok m ∧ direct ClientPayload.form played = .ok f ∧
      ClientBuilt (f.data.getD {}) f.code m ∧ m = .play 3 := by
  intro ended played
  have won : ServerMessage.decode ended = .ok (.gameEnded "eve" [[1, 2], []]) := by decide +kernel
  have said : direct ServerPayload.form ended =
      .ok ⟨8, none, some { clientId := some "eve", game := some ⟨1, [], [[1, 2], []]⟩ }⟩ := by
    decide +kernel
  have put : ClientMessage.decode played = .ok (.play 3) := by decide +kernel
  have asked : direct ClientPayload.form played = .ok ⟨6, none, some { column := some 3 }⟩ := by decide +kernel
  exact ⟨⟨_, _, won, said, (readers_agree ended).1.agrees _ _ won said, rfl⟩,
    ⟨_, _, put, asked, (readers_agree played).2.agrees _ _ put asked, rfl⟩⟩

example :
    let text := "\x7b\"event_code\":4,\"data\":\x7b\"session_id\":\"a\",\"session_id\":\"b\"\x7d\x7d"
    (ServerMessage.decode text).isOk = true ∧ (direct ServerPayload.form text).isOk = false := by
  decide +kernel

example :
    let text := "\x7b\"event_code\":7,\"data\":\x7b\"x\":1e999\x7d\x7d"
    (ServerMessage.decode text).isOk = false ∧ (direct ServerPayload.form text).isOk = true := by
  decide +kernel

end DarkDrop.Wire
