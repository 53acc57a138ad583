import DarkDrop.Json.Any

namespace DarkDrop.Json

structure Form (α : Type) where
  read : Reader α
  ofValue : Value → Except Cause α

namespace Form

def scalar (wanted : String) (accept : Scalar → Except Cause α) : Form α where
  read :=
    { run := bracketed (fun r => .error (.before (.wrongType .list wanted) ('[' :: r)))
        (fun r => .error (.before (.wrongType .object wanted) ('{' :: r)))
        fun r => match Json.scalar r with
          | .error e => .error e
          | .ok (x, r') => match accept x with
            | .error c => .error (.before c r')
            | .ok a => .ok (a, r')
      shorter := bracketed_shorter (fun h => by cases h) (fun h => by cases h) fun h => by
        split at h
        · cases h
        · rename_i hx
          split at h <;> cases h
          exact scalar_shorter hx }
  ofValue
    | .scalar x => accept x
    | .list _ => .error (.wrongType .list wanted)
    | .object _ => .error (.wrongType .object wanted)

def count (wanted : String) : Form UInt64 :=
  scalar wanted fun
    | .number (.whole n) => .ok n
    | .number (.minus n) => .error (.wrongValue (.scalar (.number (.minus n))) wanted)
    | x => .error (.wrongType (.scalar x) wanted)

def text : Form String :=
  scalar "a string" fun
    | .text s => .ok s
    | x => .error (.wrongType (.scalar x) "a string")

def optional (form : Form α) : Form (Option α) where
  read :=
    { run s := match skipSpace s with
        | 'n' :: r => (word ['u', 'l', 'l'] r).map (none, ·)
        | r => (form.read.map some).run r
      shorter {s a r} h := by
        have hs := length_skipSpace_le s
        split at h
        · rename_i he
          rw [he, List.length_cons] at hs
          obtain ⟨x, hx, he⟩ := map_eq_ok h
          cases he
          have := word_le hx
          omega
        · have := (form.read.map some).shorter h
          omega }
  ofValue
    | .scalar .null => .ok none
    | v => (form.ofValue v).map some

def list (form : Form α) : Form (List α) where
  read :=
    { run := bracketed (elements kept form.read true)
        (fun r => .error (.before (.wrongType .object "a sequence") ('{' :: r)))
        fun r => match Json.scalar r with
          | .error e => .error e
          | .ok (x, r') => .error (.before (.wrongType (.scalar x) "a sequence") r')
      shorter := bracketed_shorter elements_le (fun h => by cases h) fun h => by
        split at h <;> cases h }
  ofValue
    | .list vs => vs.mapM form.ofValue
    | .object _ => .error (.wrongType .object "a sequence")
    | .scalar x => .error (.wrongType (.scalar x) "a sequence")

def any (depth : Nat) : Form Value where
  read := Json.any depth
  ofValue := .ok

end Form

structure Field (σ : Type) where
  name : String
  filled : σ → Bool
  read : σ → Reader σ
  ofValue : σ → Value → Except Cause σ

def Field.of (name : String) (get : σ → Option α) (set : σ → α → σ) (form : Form α) : Field σ where
  name := name
  filled d := (get d).isSome
  read d := form.read.map (set d)
  ofValue d v := (form.ofValue v).map (set d)

structure Record (σ α : Type) where
  name : String
  fields : List (Field σ)
  blank : σ
  complete : σ → Except String α

namespace Record

def field? (rc : Record σ α) (k : String) : Option (Field σ) := rc.fields.find? (·.name == k)

def shortList (rc : Record σ α) (missing : String) : Cause :=
  let n := rc.fields.length
  .wrongLength (rc.fields.findIdx (·.name == missing))
    ("struct " ++ rc.name ++ " with " ++ n.repr ++ (if n = 1 then " element" else " elements"))

-- The text where a fault about the whole object is found: behind its brace, if that comes next.
def settle (s : List Char) : List Char :=
  match skipSpace s with
  | '}' :: r => r
  | r => r

def readMember (rc : Record σ α) (draft : σ) (k : String) : Reader σ :=
  match rc.field? k with
  | none => afterColon (skip.map fun _ => draft)
  | some f =>
    if f.filled draft then
      { run s := .error (.before (.duplicate k) (settle s))
        shorter h := by cases h }
    else afterColon (f.read draft)

def listEnd (s : List Char) : Except Fault (List Char) :=
  match skipSpace s with
  | [] => .error ⟨.endInList, 0⟩
  | ']' :: r => .ok r
  | ',' :: r => match skipSpace r with
    | ']' :: r' => .error (.within .trailingComma (']' :: r'))
    | r' => .error (.within .trailing r')
  | r => .error (.within .trailing r)

theorem listEnd_le {s r : List Char} (h : listEnd s = .ok r) : r.length ≤ s.length := by
  have hs := length_skipSpace_le s
  unfold listEnd at h
  split at h
  · cases h
  · rename_i he
    rw [he, List.length_cons] at hs
    cases h
    omega
  · split at h <;> cases h
  · cases h

def readInOrder : List (Field σ) → σ → (first : Bool) → List Char → Except Fault (σ × List Char)
  | [], draft, _, s => (listEnd s).map (draft, ·)
  | f :: fs, draft, first, s =>
    match nextElement kept first s with
    | .error e => .error e
    | .ok (false, r) => .ok (draft, r)
    | .ok (true, r) =>
      match (f.read draft).run r with
      | .error e => .error e
      | .ok (draft', r') => readInOrder fs draft' false r'

theorem readInOrder_le {fs : List (Field σ)} {draft first s d r}
    (h : readInOrder fs draft first s = .ok (d, r)) : r.length ≤ s.length := by
  induction fs generalizing draft first s with
  | nil =>
    obtain ⟨x, hx, he⟩ := map_eq_ok h
    cases he
    exact listEnd_le hx
  | cons f fs ih =>
    unfold readInOrder at h
    split at h
    · cases h
    · rename_i hn
      cases h
      exact nextElement_le hn
    · rename_i hn
      have := nextElement_le hn
      split at h
      · cases h
      · rename_i hf
        have := (f.read draft).shorter hf
        have := ih h
        omega

def completeAfter (rc : Record σ α) (cause : String → Cause) :
    Except Fault (σ × List Char) → Except Fault (α × List Char)
  | .error e => .error e
  | .ok (draft, r) => match rc.complete draft with
    | .error f => .error (.before (cause f) r)
    | .ok a => .ok (a, r)

theorem completeAfter_eq_ok {rc : Record σ α} {cause x a r}
    (h : rc.completeAfter cause x = .ok (a, r)) : ∃ d, x = .ok (d, r) := by
  unfold completeAfter at h
  split at h
  · cases h
  · rename_i d r'
    split at h <;> cases h
    exact ⟨d, rfl⟩

def takeInOrder : List (Field σ) → σ → List Value → Except Cause σ
  | f :: fs, draft, v :: vs => do takeInOrder fs (← f.ofValue draft v) vs
  | _, draft, _ => .ok draft

def takeMember (rc : Record σ α) (draft : σ) (m : String × Value) : Except Cause σ :=
  match rc.field? m.1 with
  | none => .ok draft
  | some f => f.ofValue draft m.2

def form (rc : Record σ α) : Form α where
  read :=
    { run := bracketed
        (fun r => rc.completeAfter rc.shortList (readInOrder rc.fields rc.blank true r))
        (fun r => rc.completeAfter .missing (members kept rc.readMember rc.blank true r))
        fun r => match scalar r with
          | .error e => .error e
          | .ok (x, r') => .error (.before (.wrongType (.scalar x) ("struct " ++ rc.name)) r')
      shorter := bracketed_shorter
        (fun h => by
          obtain ⟨d, hd⟩ := completeAfter_eq_ok h
          exact readInOrder_le hd)
        (fun h => by
          obtain ⟨d, hd⟩ := completeAfter_eq_ok h
          exact members_le hd)
        fun h => by split at h <;> cases h }
  ofValue
    | .object ms => do
      let draft ← ms.foldlM rc.takeMember rc.blank
      (rc.complete draft).mapError .missing
    | .list vs => do
      let draft ← takeInOrder rc.fields rc.blank vs
      let a ← (rc.complete draft).mapError rc.shortList
      if rc.fields.length < vs.length then
        .error (.wrongLength vs.length "fewer elements in array")
      else .ok a
    | .scalar x => .error (.wrongType (.scalar x) ("struct " ++ rc.name))

end Record
end DarkDrop.Json
