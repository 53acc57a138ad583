import DarkDrop.Proofs.Json.Differing
import DarkDrop.Proofs.Wire.Layouts
import Mathlib.Logic.Relation

namespace DarkDrop.Wire
open Json

def nullTree : Tree := .leaf "null".toList
def blankText : Tree := .leaf "\"\"".toList
def zeroTree : Tree := .leaf "0".toList
def blankList : Tree := .list []
def blankObject : Tree := .object []

abbrev Blanks := List (String × List Tree)

theorem null_value (d : Nat) : nullTree.value? d = some (.scalar .null) := by cases d <;> rfl

theorem blank_text_value (d : Nat) : blankText.value? d = some (.ofString "") := by
  have read : scalar? "\"\"".toList = some (.text "") := by decide +kernel
  rw [blankText, Tree.value?, read]
  rfl

theorem zero_value (d : Nat) : zeroTree.value? d = some (.ofNat 0) := by cases d <;> rfl

theorem blank_list_value (d : Nat) : blankList.value? (d + 1) = some (.list []) := rfl

theorem blank_object_value (d : Nat) : blankObject.value? (d + 1) = some (.object []) := rfl

inductive Varies (blanks : Blanks) (within : String → Tree → Tree → Prop) : Tree → Tree → Prop where
  | blank (k : String) (ways : List Tree) (listed : (k, ways) ∈ blanks) (a b : Option Tree) (here : ∀ x ∈ a, x ∈ ways)
      (there : ∀ y ∈ b, y ∈ ways) (t u : Tree) (differs : Tree.Differs (blanks.map Prod.fst) k a b t u) :
      Varies blanks within t u
  | within (k : String) (x y : Tree) (varies : within k x y) (t u : Tree)
      (differs : Tree.Differs (blanks.map Prod.fst) k (some x) (some y) t u) : Varies blanks within t u

def gameBlanks : Blanks :=
  [("turn_index", [zeroTree]), ("player_order", [blankList]), ("play_indexes", [blankList])]

-- Where a session is told without a game, this is not the same as an empty one.
def serverBlanks (code : ServerCode) : Blanks :=
  [("session_id", [nullTree, blankText]), ("client_id", [nullTree, blankText]),
    ("session_client_ids", [nullTree, blankList]),
    ("game_data", if code = .sessionResponse then [nullTree] else [nullTree, blankObject])]

def clientBlanks : Blanks := [("session_id", [nullTree]), ("column", [nullTree]), ("target_ids", [nullTree])]

def frameBlanks : Blanks := [("event_code", []), ("message", [nullTree, blankText]), ("data", [nullTree, blankObject])]

def GameVaries : Tree → Tree → Prop := Varies gameBlanks fun _ _ _ => False

def ServerDataVaries (code : ServerCode) : Tree → Tree → Prop :=
  Varies (serverBlanks code) fun k x y => k = "game_data" ∧ GameVaries x y

def ClientDataVaries : Tree → Tree → Prop := Varies clientBlanks fun _ _ _ => False

def ServerVaries (code : ServerCode) : Tree → Tree → Prop :=
  Varies frameBlanks fun k x y => k = "data" ∧ ServerDataVaries code x y

def ClientVaries : Tree → Tree → Prop := Varies frameBlanks fun k x y => k = "data" ∧ ClientDataVaries x y

section

variable (blanks : Blanks) (within : String → Tree → Tree → Prop) (t u : Tree) (varies : Varies blanks within t u)
include varies

theorem varies_turned (turned : ∀ k x y, within k x y → within k y x) : Varies blanks within u t := by
  cases varies with
  | blank k ways listed a b here there _ _ differs =>
      exact .blank k ways listed b a there here _ _ (Tree.differs_turned _ _ _ _ _ _ differs)
  | within k x y varies _ _ differs =>
      exact .within k y x (turned k x y varies) _ _ (Tree.differs_turned _ _ _ _ _ _ differs)

theorem varies_valid (valid : t.Valid) (blank : ∀ part ∈ blanks, ∀ x ∈ part.2, x.Valid)
    (kept : ∀ k x y, within k x y → x.Valid → y.Valid) : u.Valid := by
  cases varies with
  | blank k ways listed a b here there _ _ differs =>
      exact Tree.differs_valid _ _ _ _ _ _ differs valid fun y member => blank _ listed y (there y member)
  | within k x y varies _ _ differs =>
      have before := Tree.differs_part _ _ _ _ _ _ differs valid x rfl
      apply Tree.differs_valid _ _ _ _ _ _ differs valid
      intro z here
      cases here
      exact kept k x y varies before

end

theorem rel_alone {α β : Type} (shows : α → β → Prop) (function : ∀ a b c, shows a b → shows a c → b = c) (x : Option α)
    (y z : Option β) (here : Option.Rel shows x y) (there : Option.Rel shows x z) : y = z := by
  cases here with
  | none =>
      cases there
      rfl
  | some one =>
      cases there with
      | some other => rw [function _ _ _ one other]

structure Carried {π : Type} (form : Form π) (related : π → π → Prop) (v w : Value) : Prop where
  some : v ≠ .scalar .null
  other : w ≠ .scalar .null
  read : ∀ p, form.ofValue v.sorted = .ok p → ∃ q, form.ofValue w.sorted = .ok q ∧ related p q

def Carries {π : Type} (d : Nat) (form : Form π) (related : π → π → Prop) (step : Tree → Tree → Prop) : Prop :=
  ∀ x y, step x y → ∀ v, x.value? d = some v → ∃ w, y.value? d = some w ∧ Carried form related v w

section

variable {σ α β : Type} (rc : Record σ α) (distinct : rc.Distinct) (k : String) (get : σ → Option β) (set : σ → β → σ)
  (form : Form β) (found : rc.field? k = some (Field.of k get set form)) (related : α → α → Prop) (d : Nat)
  (a b : Option Tree)

def Turns (x y : Option Value) : Prop :=
  ∀ base i p, get base = none → Yields form x i → rc.complete (i.elim base (set base)) = .ok p →
    ∃ j q, Yields form y j ∧ rc.complete (j.elim base (set base)) = .ok q ∧ related p q

include distinct found

theorem differ_carried (turns : ∀ x, Tree.Sees (Tree.value? d) a x →
      ∃ y, Tree.Sees (Tree.value? d) b y ∧ Turns rc get set form related x y)
    (t u : Tree) (differs : Tree.Differs (rc.fields.map (·.name)) k a b t u) (v : Value)
    (seen : t.value? (d + 1) = some v) : ∃ w, u.value? (d + 1) = some w ∧ Carried rc.form related v w := by
  have names := names_apart rc distinct
  obtain ⟨full, x, es, sees, members, other⟩ := Tree.value_differ _ names k a b t u differs d v seen
  obtain ⟨y, sees', turn⟩ := turns x sees
  obtain ⟨w, us, seen', full', members', differ⟩ := other y sees'
  refine ⟨w, seen', full, full', fun p taken => ?_⟩
  obtain ⟨base, i, vacant, yields, whole, fill⟩ :=
    record_apart rc distinct k get set form found v w es us members members' x y differ p taken
  obtain ⟨j, q, yields', whole', alike⟩ := turn base i p vacant yields whole
  exact ⟨q, fill j q yields' whole', alike⟩

omit distinct found

structure Presents (a : Option Tree) (x : Option Value) (i : Option β) : Prop where
  sees : Tree.Sees (Tree.value? d) a x
  yields : Yields form x i

structure Builds (built : σ → Option β → α) : Prop where
  vacant : ∀ base, get base = none → rc.complete base = .ok (built base none)
  filled : ∀ base i, rc.complete (set base i) = .ok (built base (some i))

variable (built : σ → Option β → α) (builds : Builds rc get set built)
include builds

theorem built_whole (base : σ) (vacant : get base = none) (i : Option β) :
    rc.complete (i.elim base (set base)) = .ok (built base i) := by
  cases i with
  | none => exact builds.vacant base vacant
  | some i => exact builds.filled base i

theorem presents_turns (x y : Option Value) (i j : Option β) (here : Presents form d a x i)
    (there : Presents form d b y j) (alike : ∀ base, related (built base i) (built base j)) (z : Option Value)
    (sees : Tree.Sees (Tree.value? d) a z) :
    ∃ y, Tree.Sees (Tree.value? d) b y ∧ Turns rc get set form related z y := by
  have same : z = x := rel_alone _ (fun t v w one other => Option.some.inj (one.symm.trans other)) a z x sees here.sees
  subst same
  refine ⟨y, there.sees, fun base m p vacant yields read => ?_⟩
  have same : m = i :=
    rel_alone _ (fun v i j one other => Except.ok.inj (one.symm.trans other)) z m i yields here.yields
  subst same
  rw [built_whole rc get set built builds base vacant] at read
  cases read
  exact ⟨j, _, there.yields, built_whole rc get set built builds base vacant j, alike base⟩

end

section

variable {β γ : Type} (form : Form β) (d : Nat) (shown : Option β → γ) (nothing : γ) (ways : List Tree)

structure Void : Prop where
  absent : shown none = nothing
  written : ∀ t ∈ ways, ∃ v b, t.value? d = some v ∧ form.ofValue v.sorted = .ok b ∧ shown (some b) = nothing

theorem void_presents (void : Void form d shown nothing ways) (a : Option Tree) (here : ∀ t ∈ a, t ∈ ways) :
    ∃ x i, Presents form d a x i ∧ shown i = nothing := by
  cases a with
  | none => exact ⟨none, none, ⟨.none, .none⟩, void.absent⟩
  | some t =>
      obtain ⟨v, i, seen, read, blank⟩ := void.written t (here t rfl)
      exact ⟨some v, some i, ⟨.some seen, .some read⟩, blank⟩

theorem null_void : Void form.optional d Option.join none [nullTree] := by
  refine ⟨rfl, ?_⟩
  rw [List.forall_mem_singleton]
  exact ⟨_, none, null_value d, rfl, rfl⟩

theorem default_void (b : β) (t : Tree) (v : Value) (seen : t.value? d = some v)
    (read : form.optional.ofValue v.sorted = .ok (some b)) :
    Void form.optional d (fun x => x.join.getD b) b [nullTree, t] := by
  refine ⟨rfl, ?_⟩
  simp only [List.forall_mem_cons]
  exact ⟨⟨_, none, null_value d, rfl, rfl⟩, ⟨v, some b, seen, read, rfl⟩, List.forall_mem_nil _⟩

theorem required_void (b : β) (t : Tree) (v : Value) (seen : t.value? d = some v)
    (read : form.ofValue v.sorted = .ok b) : Void form d (fun x => x.getD b) b [t] := by
  refine ⟨rfl, ?_⟩
  rw [List.forall_mem_singleton]
  exact ⟨v, b, seen, read, rfl⟩

end

inductive Blankable {σ α : Type} (rc : Record σ α) (related : α → α → Prop) (d : Nat) (k : String) (ways : List Tree) :
    Prop where
  | intro {β γ : Type} (form : Form β) (get : σ → Option β) (set : σ → β → σ)
      (found : rc.field? k = some (Field.of k get set form)) (shown : Option β → γ) (nothing : γ)
      (void : Void form d shown nothing ways) (built : σ → Option β → α) (builds : Builds rc get set built)
      (alike : ∀ base i j, shown i = shown j → related (built base i) (built base j)) : Blankable rc related d k ways

section

variable {σ α : Type} (rc : Record σ α) (distinct : rc.Distinct) (related : α → α → Prop) (d : Nat)
include distinct

theorem blank_carried (k : String) (ways : List Tree) (blankable : Blankable rc related d k ways) (a b : Option Tree)
    (here : ∀ t ∈ a, t ∈ ways) (there : ∀ t ∈ b, t ∈ ways) :
    Carries (d + 1) rc.form related (Tree.Differs (rc.fields.map (·.name)) k a b) := by
  intro t u differs v seen
  cases blankable with
  | intro form get set found shown nothing void built builds alike =>
      obtain ⟨x, i, presents, blank⟩ := void_presents form d shown nothing ways void a here
      obtain ⟨y, j, presents', blank'⟩ := void_presents form d shown nothing ways void b there
      have turns := presents_turns rc get set form related d a b built builds x y i j presents presents'
        fun base => alike base i j (blank.trans blank'.symm)
      exact differ_carried rc distinct k get set form found related d a b turns t u differs v seen

theorem varies_carried (blanks : Blanks) (names : blanks.map Prod.fst = rc.fields.map (·.name))
    (table : ∀ part ∈ blanks, Blankable rc related d part.1 part.2) (within : String → Tree → Tree → Prop)
    (inner : ∀ k x y, within k x y →
      Carries (d + 1) rc.form related (Tree.Differs (rc.fields.map (·.name)) k (some x) (some y))) :
    Carries (d + 1) rc.form related (Varies blanks within) := by
  intro t u varies
  cases varies with
  | blank k ways listed a b here there _ _ differs =>
      rw [names] at differs
      exact blank_carried rc distinct related d k ways (table _ listed) a b here there t u differs
  | within k x y varies _ _ differs =>
      rw [names] at differs
      exact inner k x y varies t u differs

end

theorem game_blankable (d : Nat) : ∀ part ∈ gameBlanks, Blankable Snapshot.record Eq (d + 1) part.1 part.2 := by
  have turn := required_void (.count "usize") (d + 1) 0 _ _ (zero_value _) rfl
  have order := required_void (.list .text) (d + 1) [] _ _ (blank_list_value d) rfl
  have columns := required_void (.list (.list (.count "u64"))) (d + 1) [] _ _ (blank_list_value d) rfl
  simp only [gameBlanks, List.forall_mem_cons]
  refine ⟨?_, ?_, ?_, List.forall_mem_nil _⟩
  · exact .intro _ _ _ rfl _ _ turn (fun base i => ⟨i.getD 0, base.playerOrder.getD [], base.playIndexes.getD []⟩)
      ⟨fun base vacant => by simp [Snapshot.record, vacant], fun _ _ => rfl⟩ fun base i j same => by rw [same]
  · exact .intro _ _ _ rfl _ _ order (fun base i => ⟨base.turnIndex.getD 0, i.getD [], base.playIndexes.getD []⟩)
      ⟨fun base vacant => by simp [Snapshot.record, vacant], fun _ _ => rfl⟩ fun base i j same => by rw [same]
  · exact .intro _ _ _ rfl _ _ columns (fun base i => ⟨base.turnIndex.getD 0, base.playerOrder.getD [], i.getD []⟩)
      ⟨fun base vacant => by simp [Snapshot.record, vacant], fun _ _ => rfl⟩ fun base i j same => by rw [same]

theorem game_carries (d : Nat) : Carries (d + 2) Snapshot.form Eq GameVaries :=
  varies_carried Snapshot.record snapshot_lawful.distinct Eq (d + 1) gameBlanks rfl (game_blankable d) _
    fun _ _ _ never => never.elim

theorem client_blankable (d : Nat) : ∀ part ∈ clientBlanks, Blankable ClientPayload.record Eq d part.1 part.2 := by
  simp only [clientBlanks, List.forall_mem_cons]
  refine ⟨?_, ?_, ?_, List.forall_mem_nil _⟩
  · exact .intro _ _ _ rfl _ _ (null_void _ d) (fun base i => ⟨i.join, base.column.join, base.targets.join⟩)
      ⟨fun base vacant => by simp [ClientPayload.record, vacant], fun _ _ => rfl⟩ fun base i j same => by rw [same]
  · exact .intro _ _ _ rfl _ _ (null_void _ d) (fun base i => ⟨base.sessionId.join, i.join, base.targets.join⟩)
      ⟨fun base vacant => by simp [ClientPayload.record, vacant], fun _ _ => rfl⟩ fun base i j same => by rw [same]
  · exact .intro _ _ _ rfl _ _ (null_void _ d) (fun base i => ⟨base.sessionId.join, base.column.join, i.join⟩)
      ⟨fun base vacant => by simp [ClientPayload.record, vacant], fun _ _ => rfl⟩ fun base i j same => by rw [same]

theorem client_carries (d : Nat) : Carries (d + 1) ClientPayload.form Eq ClientDataVaries :=
  varies_carried ClientPayload.record client_lawful.distinct Eq d clientBlanks rfl (client_blankable d) _
    fun _ _ _ never => never.elim

structure SameParts (code : ServerCode) (p q : ServerPayload) : Prop where
  session : p.sessionId.getD "" = q.sessionId.getD ""
  client : p.clientId.getD "" = q.clientId.getD ""
  members : p.members.getD [] = q.members.getD []
  game : p.game.getD {} = q.game.getD {}
  told : code = .sessionResponse → p.game = q.game

theorem same_parts_refl (code : ServerCode) (p : ServerPayload) : SameParts code p p where
  session := rfl
  client := rfl
  members := rfl
  game := rfl
  told _ := rfl

theorem same_parts_message (code : ServerCode) (message message' : Option String) (p q : ServerPayload)
    (said : message.getD "" = message'.getD "") (same : SameParts code p q) :
    ServerMessage.ofParts code message p = ServerMessage.ofParts code message' q := by
  have shown (p : ServerPayload) : (p.game.map (·.playIndexes)).getD [] = (p.game.getD {}).playIndexes := by
    cases p.game <;> rfl
  cases code with
  | sessionResponse => simp only [ServerMessage.ofParts, same.session, same.members, same.told rfl]
  | _ => simp only [ServerMessage.ofParts, shown, same.session, same.client, same.members, same.game, said]

theorem game_builds : Builds ServerPayload.record (·.game) (fun d x => { d with game := some x })
    fun base i => ⟨base.sessionId.join, base.clientId.join, base.members.join, i.join⟩ where
  vacant base vacant := by simp [ServerPayload.record, vacant]
  filled _ _ := rfl

theorem server_blankable (d : Nat) (code : ServerCode) :
    ∀ part ∈ serverBlanks code, Blankable ServerPayload.record (SameParts code) (d + 1) part.1 part.2 := by
  have text := default_void .text (d + 1) "" _ _ (blank_text_value _) rfl
  have texts := default_void (.list .text) (d + 1) [] _ _ (blank_list_value d) rfl
  simp only [serverBlanks, List.forall_mem_cons]
  refine ⟨?_, ?_, ?_, ?_, List.forall_mem_nil _⟩
  · exact .intro _ _ _ rfl _ _ text (fun base i => ⟨i.join, base.clientId.join, base.members.join, base.game.join⟩)
      ⟨fun base vacant => by simp [ServerPayload.record, vacant], fun _ _ => rfl⟩
      fun base i j same => { same_parts_refl code _ with session := same }
  · exact .intro _ _ _ rfl _ _ text (fun base i => ⟨base.sessionId.join, i.join, base.members.join, base.game.join⟩)
      ⟨fun base vacant => by simp [ServerPayload.record, vacant], fun _ _ => rfl⟩
      fun base i j same => ⟨rfl, same, rfl, rfl, fun _ => rfl⟩
  · exact .intro _ _ _ rfl _ _ texts (fun base i => ⟨base.sessionId.join, base.clientId.join, i.join, base.game.join⟩)
      ⟨fun base vacant => by simp [ServerPayload.record, vacant], fun _ _ => rfl⟩
      fun base i j same => ⟨rfl, rfl, same, rfl, fun _ => rfl⟩
  · by_cases response : code = .sessionResponse
    · rw [if_pos response]
      exact .intro _ _ _ rfl _ _ (null_void Snapshot.form (d + 1)) _ game_builds
        fun base i j same => ⟨rfl, rfl, rfl, congrArg (Option.getD · {}) same, fun _ => same⟩
    · rw [if_neg response]
      have game := default_void Snapshot.form (d + 1) {} _ _ (blank_object_value _) rfl
      exact .intro _ _ _ rfl _ _ game _ game_builds
        fun base i j same => ⟨rfl, rfl, rfl, same, fun told => absurd told response⟩

theorem game_within (d : Nat) (code : ServerCode) (x y : Tree) (varies : GameVaries x y) :
    Carries (d + 3) ServerPayload.form (SameParts code)
      (Tree.Differs (ServerPayload.record.fields.map (·.name)) "game_data" (some x) (some y)) := by
  intro t u differs v seen
  apply differ_carried _ server_lawful.distinct "game_data" _ _ _ rfl _ (d + 2) _ _ ?_ t u differs v seen
  intro z sees
  cases sees with
  | @some _ v seen =>
      obtain ⟨w, seen', carried⟩ := game_carries d x y varies v seen
      refine ⟨some w, .some seen', fun base i p vacant yields whole => ?_⟩
      cases yields with
      | @some _ i read =>
          rw [optional_present _ _ (fun same => carried.some ((sorted_null v).mp same))] at read
          obtain ⟨g, inner, rfl⟩ := map_eq_ok read
          obtain ⟨_, inner', rfl⟩ := carried.read g inner
          refine ⟨some (some g), p, .some ?_, whole, same_parts_refl code p⟩
          rw [optional_present _ _ (fun same => carried.other ((sorted_null w).mp same)), inner']
          rfl

theorem server_carries (d : Nat) (code : ServerCode) :
    Carries (d + 3) ServerPayload.form (SameParts code) (ServerDataVaries code) := by
  apply varies_carried _ server_lawful.distinct _ _ (serverBlanks code) rfl (server_blankable (d + 1) code)
  rintro _ x y ⟨rfl, varies⟩
  exact game_within d code x y varies

def Regamed (i j : Option Snapshot) (p q : ServerPayload) : Prop := p.game = i ∧ q = { p with game := j }

theorem game_rewritten (d : Nat) (a b : Option Tree) (x y : Option Value) (i j : Option (Option Snapshot))
    (here : Presents Snapshot.form.optional d a x i) (there : Presents Snapshot.form.optional d b y j) :
    Carries (d + 1) ServerPayload.form (Regamed i.join j.join)
      (Tree.Differs (ServerPayload.record.fields.map (·.name)) "game_data" a b) := by
  intro t u differs v seen
  have turns := presents_turns _ _ _ _ (Regamed i.join j.join) d a b _ game_builds x y i j here there
    fun base => ⟨rfl, rfl⟩
  exact differ_carried _ server_lawful.distinct "game_data" _ _ _ rfl _ d a b turns t u differs v seen

theorem game_missing (d : Nat) (a : Option Tree) (missing : ∀ t ∈ a, t = nullTree) :
    ∃ x i, Presents Snapshot.form.optional d a x i ∧ i.join = none :=
  void_presents _ _ _ _ _ (null_void Snapshot.form d) a fun t here => List.mem_singleton.mpr (missing t here)

theorem game_empty (d : Nat) :
    Presents Snapshot.form.optional (d + 1) (some blankObject) (some (.object [])) (some (some {})) where
  sees := .some (blank_object_value d)
  yields := .some rfl

end DarkDrop.Wire
