import DarkDrop.Wire.Message
import DarkDrop.Proofs.Json.RecordText

namespace DarkDrop.Wire
open Json

theorem fills_member_of {σ α β ρ : Type} (rc : Record σ ρ) (draft last : σ) (name : String)
    (get : σ → Option (Option β)) (set : σ → Option β → σ) (form : Form β) (write : α → Value)
    (back : α → β) (x : Option α) (ms : List (String × Value))
    (found : rc.field? name = some (.of name get set form.optional)) (vacant : get draft = none)
    (reads : ∀ a, Reads form.optional.read (write a).write (some (back a)))
    (later : Fills rc.readMember (x.elim draft fun a => set draft (some (back a))) ms last) :
    Fills rc.readMember draft (memberOf name write x ++ ms) last := by
  cases x with
  | none => exact later
  | some a =>
      have read := member_reads rc draft name get set form.optional (write a) _ found vacant (reads a)
      exact .member draft _ last name (write a) ms read later

theorem taken_member_of {σ α ρ : Type} (rc : Record σ ρ) (draft last : σ) (name : String)
    (get : σ → Option (Option α)) (set : σ → Option α → σ) (form : Form α) (write : α → Value)
    (x : Option α) (ms : List (String × Value))
    (found : rc.field? name = some (.of name get set form.optional))
    (present : ∀ a, write a ≠ .scalar .null) (value : ∀ a, form.ofValue (write a) = .ok a)
    (later : ms.foldlM rc.takeMember (x.elim draft fun a => set draft (some a)) = .ok last) :
    (memberOf name write x ++ ms).foldlM rc.takeMember draft = .ok last := by
  cases x with
  | none => exact later
  | some a =>
      have whole := optional_value form (write a) a (present a) (value a)
      have taken := member_taken rc draft name get set form.optional (write a) _ found whole
      change ((name, write a) :: ms).foldlM rc.takeMember draft = .ok last
      rw [List.foldlM_cons, taken]
      exact later

theorem member_of_fits {α : Type} (d : Nat) (name : String) (write : α → Value) (x : Option α)
    (each : ∀ a, Fits d (write a)) : ∀ m ∈ memberOf name write x, Fits d m.2 := by
  cases x with
  | none => intro m member; cases member
  | some a =>
      intro m member
      rw [List.mem_singleton.mp member]
      exact each a

theorem number_fits (d : Nat) (n : UInt64) : Fits d (.ofNat n) := .scalar d _ trivial

theorem string_fits (d : Nat) (s : String) : Fits d (.ofString s) := .scalar d _ trivial

theorem map_fits {α : Type} (d : Nat) (write : α → Value) (as : List α)
    (each : ∀ a, Fits d (write a)) : Fits (d + 1) (.list (as.map write)) := by
  refine .list d _ fun v member => ?_
  obtain ⟨a, _, rfl⟩ := List.mem_map.mp member
  exact each a

theorem strings_fit (d : Nat) (l : List String) : Fits (d + 1) (.ofStrings l) :=
  map_fits d .ofString l (string_fits d)

theorem map_sorted {α : Type} (write : α → Value) (as : List α)
    (each : ∀ a, (write a).sorted = write a) :
    (Value.list (as.map write)).sorted = .list (as.map write) := by
  have all : sortedList (as.map write) = as.map write := by
    induction as with
    | nil => rfl
    | cons a as ih => rw [List.map_cons, sortedList, each, ih]
  rw [Value.sorted, all]

theorem strings_sorted (l : List String) : (Value.ofStrings l).sorted = .ofStrings l :=
  map_sorted .ofString l fun _ => rfl

theorem strings_value (l : List String) : (Form.list .text).ofValue (.ofStrings l) = .ok l :=
  list_value .text .ofString l fun _ => rfl

def boardValue (board : List (List UInt64)) : Value :=
  .list (board.map fun c => .list (c.map .ofNat))

theorem board_fits (d : Nat) (board : List (List UInt64)) : Fits (d + 2) (boardValue board) :=
  map_fits (d + 1) _ board fun c => map_fits d .ofNat c (number_fits d)

theorem board_sorted (board : List (List UInt64)) : (boardValue board).sorted = boardValue board :=
  map_sorted _ board fun c => map_sorted .ofNat c fun _ => rfl

theorem board_value (board : List (List UInt64)) :
    (Form.list (.list (.count "u64"))).ofValue (boardValue board) = .ok board :=
  list_value (.list (.count "u64")) _ board fun c => list_value (.count "u64") .ofNat c fun _ => rfl

theorem snapshot_fits (d : Nat) (g : Snapshot) : Fits (d + 3) g.toValue := by
  refine .object (d + 2) _ fun m member => ?_
  rcases List.mem_append.mp member with plain | board
  · simp only [List.mem_cons, List.not_mem_nil, or_false] at plain
    rcases plain with rfl | rfl
    · exact number_fits _ _
    · exact strings_fit _ _
  · split at board
    · cases board
    · rw [List.mem_singleton.mp board]
      exact board_fits d g.playIndexes

theorem snapshot_rest_taken (draft : Snapshot.Draft) (turn : UInt64) (order : List String) :
    [("player_order", .ofStrings order), ("turn_index", .ofNat turn)].foldlM
        Snapshot.record.takeMember draft =
      .ok { draft with playerOrder := some order, turnIndex := some turn } := by
  have players := member_taken Snapshot.record draft "player_order" _ _ (.list .text) _ order rfl
    (strings_value order)
  rw [List.foldlM_cons, players]
  rfl

-- An empty board is left out by the writer and put back by the reader's default.
theorem snapshot_value (g : Snapshot) : Snapshot.form.ofValue g.toValue.sorted = .ok g := by
  obtain ⟨turn, order, board⟩ := g
  have names := strings_sorted order
  cases board with
  | nil =>
      have sorted : (Snapshot.toValue ⟨turn, order, []⟩).sorted =
          .object [("player_order", .ofStrings order), ("turn_index", .ofNat turn)] := by
        have written : Snapshot.toValue ⟨turn, order, []⟩ =
            .object [("turn_index", .ofNat turn), ("player_order", .ofStrings order)] := rfl
        rw [written]
        simp only [Value.sorted, sortedMembers, names]
        rfl
      rw [sorted]
      exact record_value Snapshot.record _ _ _ (snapshot_rest_taken {} turn order) rfl
  | cons c cs =>
      have columns := board_sorted (c :: cs)
      have sorted : (Snapshot.toValue ⟨turn, order, c :: cs⟩).sorted =
          .object [("play_indexes", boardValue (c :: cs)), ("player_order", .ofStrings order),
            ("turn_index", .ofNat turn)] := by
        have written : Snapshot.toValue ⟨turn, order, c :: cs⟩ = .object [("turn_index", .ofNat turn),
            ("player_order", .ofStrings order), ("play_indexes", boardValue (c :: cs))] := rfl
        rw [written]
        simp only [Value.sorted, sortedMembers, names, columns]
        rfl
      have board := member_taken Snapshot.record {} "play_indexes" _ _ (.list (.list (.count "u64")))
        _ (c :: cs) rfl (board_value (c :: cs))
      rw [sorted]
      refine record_value Snapshot.record _ ⟨some turn, some order, some (c :: cs)⟩ _ ?_ rfl
      rw [List.foldlM_cons]
      change (Snapshot.record.takeMember {} _ >>= _) = _
      rw [board]
      exact snapshot_rest_taken _ turn order

theorem server_fits (d : Nat) (p : ServerPayload) : Fits (d + 4) p.toValue := by
  refine .object (d + 3) _ fun m member => ?_
  simp only [List.mem_append] at member
  rcases member with ((session | client) | members) | game
  · exact member_of_fits _ _ _ _ (string_fits _) m session
  · exact member_of_fits _ _ _ _ (string_fits _) m client
  · exact member_of_fits _ _ _ _ (strings_fit _) m members
  · exact member_of_fits _ _ _ _ (snapshot_fits d) m game

theorem server_sorted (p : ServerPayload) :
    p.toValue.sorted = .object (memberOf "client_id" .ofString p.clientId ++
      (memberOf "game_data" (fun g => g.toValue.sorted) p.game ++
        (memberOf "session_client_ids" .ofStrings p.members ++
          (memberOf "session_id" .ofString p.sessionId ++ [])))) := by
  obtain ⟨session, client, members, game⟩ := p
  cases session <;> cases client <;> cases members <;> cases game <;>
    simp only [ServerPayload.toValue, memberOf, List.nil_append, List.cons_append, List.append_nil,
      Value.sorted, sortedMembers, strings_sorted] <;> rfl

theorem number_present (n : UInt64) : Value.ofNat n ≠ .scalar .null := by
  intro null
  cases null

theorem string_present (s : String) : Value.ofString s ≠ .scalar .null := by
  intro null
  cases null

theorem snapshot_present (g : Snapshot) : g.toValue.sorted ≠ .scalar .null := by
  intro null
  rw [Snapshot.toValue, Value.sorted] at null
  cases null

theorem strings_present (l : List String) : Value.ofStrings l ≠ .scalar .null := by
  intro null
  cases null

theorem server_value (p : ServerPayload) : ServerPayload.form.ofValue p.toValue.sorted = .ok p := by
  have session (draft : ServerPayload.Draft) := taken_member_of ServerPayload.record draft _
    "session_id" _ _ .text .ofString p.sessionId [] rfl string_present (fun _ => rfl) rfl
  have members (draft : ServerPayload.Draft) := taken_member_of ServerPayload.record draft _
    "session_client_ids" _ _ (.list .text) .ofStrings p.members _ rfl strings_present strings_value
    (session _)
  have game (draft : ServerPayload.Draft) := taken_member_of ServerPayload.record draft _
    "game_data" _ _ Snapshot.form (fun g => g.toValue.sorted) p.game _ rfl snapshot_present
    snapshot_value (members _)
  have client := taken_member_of ServerPayload.record {} _ "client_id" _ _ .text .ofString p.clientId
    _ rfl string_present (fun _ => rfl) (game _)
  rw [server_sorted]
  refine record_value ServerPayload.record _ _ p client ?_
  obtain ⟨s, c, m, g⟩ := p
  cases s <;> cases c <;> cases m <;> cases g <;> rfl

theorem client_fits (d : Nat) (p : ClientPayload) : Fits (d + 2) p.toValue := by
  refine .object (d + 1) _ fun m member => ?_
  simp only [List.mem_append] at member
  rcases member with (session | column) | targets
  · exact member_of_fits _ _ _ _ (string_fits _) m session
  · exact member_of_fits _ _ _ _ (number_fits _) m column
  · exact member_of_fits _ _ _ _ (strings_fit _) m targets

theorem client_sorted (p : ClientPayload) :
    p.toValue.sorted = .object (memberOf "column" .ofNat p.column ++
      (memberOf "session_id" .ofString p.sessionId ++
        (memberOf "target_ids" .ofStrings p.targets ++ []))) := by
  obtain ⟨session, column, targets⟩ := p
  cases session <;> cases column <;> cases targets <;>
    simp only [ClientPayload.toValue, memberOf, List.nil_append, List.cons_append, List.append_nil,
      Value.sorted, sortedMembers, strings_sorted] <;> rfl

theorem client_value (p : ClientPayload) : ClientPayload.form.ofValue p.toValue.sorted = .ok p := by
  have targets (draft : ClientPayload.Draft) := taken_member_of ClientPayload.record draft _
    "target_ids" _ _ (.list .text) .ofStrings p.targets [] rfl strings_present strings_value rfl
  have session (draft : ClientPayload.Draft) := taken_member_of ClientPayload.record draft _
    "session_id" _ _ .text .ofString p.sessionId _ rfl string_present (fun _ => rfl) (targets _)
  have column := taken_member_of ClientPayload.record {} _ "column" _ _ (.count "usize") .ofNat
    p.column _ rfl number_present (fun _ => rfl) (session _)
  rw [client_sorted]
  refine record_value ClientPayload.record _ _ p column ?_
  obtain ⟨s, c, t⟩ := p
  cases s <;> cases c <;> cases t <;> rfl

theorem string_optional_reads (s : String) :
    Reads (Form.optional .text).read (Value.ofString s).write (some s) :=
  optional_reads .text '"' _ s rfl (by decide) (text_reads s)

theorem object_optional_reads (d : Nat) (ms : List (String × Value)) (fits : Fits d (.object ms)) :
    Reads (Form.optional (.any d)).read (Value.object ms).write (some (Value.object ms).sorted) := by
  have reads := any_written d (.object ms) fits
  cases ms with
  | nil => exact optional_reads (.any d) '{' _ _ rfl (by decide) reads
  | cons m ms => exact optional_reads (.any d) '{' _ _ rfl (by decide) reads

theorem envelope_reads {δ : Type} (e : Envelope δ) (data : δ → Value) (d : Nat)
    (object : ∀ x, ∃ ms, data x = .object ms) (fits : ∀ x, Fits d (data x)) :
    Reads (Envelope.form (.any d)).read (e.toValue data).write
      ⟨e.code, e.message, e.data.map fun x => (data x).sorted⟩ := by
  have payload (x : δ) : Reads (Form.optional (.any d)).read (data x).write (some (data x).sorted) := by
    obtain ⟨ms, same⟩ := object x
    have within := fits x
    rw [same] at within ⊢
    exact object_optional_reads d ms within
  have last (draft : Envelope.Draft Value) (vacant : draft.data = none) :=
    fills_member_of (Envelope.record (.any d)) draft _ "data" _ _ (.any d) data (fun x => (data x).sorted)
      e.data [] rfl vacant payload (.done _)
  have message := fills_member_of (Envelope.record (.any d)) { code := some e.code } _ "message" _ _ .text
    .ofString id e.message _ rfl rfl string_optional_reads
    (last _ (by cases e.message <;> rfl))
  have code := member_reads (Envelope.record (.any d)) {} "event_code" _ _ (.count "u64")
    (.ofNat e.code) e.code rfl rfl (count_reads "u64" e.code)
  have fills := Fills.member _ _ _ "event_code" (.ofNat e.code) _ code message
  rw [Envelope.toValue, List.append_assoc, List.singleton_append]
  rw [List.append_nil] at fills
  refine record_reads (Envelope.record (.any d)) _ _ _ fills ?_
  obtain ⟨c, m, x⟩ := e
  cases m <;> cases x <;> rfl

theorem open_written {δ : Type} (e : Envelope δ) (data : δ → Value)
    (object : ∀ x, ∃ ms, data x = .object ms) (fits : ∀ x, Fits (maxDepth - 1) (data x)) :
    openEnvelope (.ofList (e.toValue data).write) =
      .ok ⟨e.code, e.message, e.data.map fun x => (data x).sorted⟩ := by
  rw [openEnvelope, String.toList_ofList,
    read_all_written _ _ _ (envelope_reads e data (maxDepth - 1) object fits)]
  rfl

theorem payload_written {π : Type} [Inhabited π] (form : Form π) (write : π → Value) (code : UInt64)
    (x : Option π) (value : ∀ p, form.ofValue (write p) = .ok p) :
    payload form code (x.map write) = .ok (x.getD default) := by
  cases x with
  | none => rfl
  | some p =>
      rw [Option.map_some, payload, value]
      rfl

theorem server_decode_encode (m : ServerMessage) : ServerMessage.decode m.encode = .ok m := by
  have opened := open_written m.envelope ServerPayload.toValue (fun p => ⟨_, rfl⟩)
    (fun p => server_fits 122 p)
  have paid := payload_written ServerPayload.form (fun p => p.toValue.sorted) m.code.toNumber
    m.payload? server_value
  have known := ServerCode.ofNumber?_toNumber m.code
  rw [ServerMessage.decode, ServerMessage.encode, opened]
  change ServerMessage.ofEnvelope ⟨m.code.toNumber, m.message?, m.payload?.map _⟩ = _
  rw [ServerMessage.ofEnvelope]
  simp only [known, paid]
  cases m <;> rfl

theorem client_decode_encode (m : ClientMessage) : ClientMessage.decode m.encode = .ok m := by
  have opened := open_written m.envelope ClientPayload.toValue (fun p => ⟨_, rfl⟩)
    (fun p => client_fits 124 p)
  have paid := payload_written ClientPayload.form (fun p => p.toValue.sorted) m.code.toNumber
    m.payload? client_value
  have known := ClientCode.ofNumber?_toNumber m.code
  rw [ClientMessage.decode, ClientMessage.encode, opened]
  change ClientMessage.ofEnvelope ⟨m.code.toNumber, none, m.payload?.map _⟩ = _
  rw [ClientMessage.ofEnvelope]
  simp only [known, paid]
  cases m <;> rfl

theorem wire_round_trip :
    (∀ m : ServerMessage, ServerMessage.decode m.encode = .ok m) ∧
    (∀ m : ClientMessage, ClientMessage.decode m.encode = .ok m) ∧
    (∀ m n : ServerMessage, m.encode = n.encode → m = n) ∧
    (∀ m n : ClientMessage, m.encode = n.encode → m = n) := by
  refine ⟨server_decode_encode, client_decode_encode, fun m n same => ?_, fun m n same => ?_⟩
  · have read := server_decode_encode m
    rw [same, server_decode_encode n] at read
    exact (Except.ok.inj read).symm
  · have read := client_decode_encode m
    rw [same, client_decode_encode n] at read
    exact (Except.ok.inj read).symm

end DarkDrop.Wire
