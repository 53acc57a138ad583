import DarkDrop.Json.Scan
import DarkDrop.Json.Value

namespace DarkDrop.Json

structure Reader (α : Type) where
  run : List Char → Except Fault (α × List Char)
  shorter : ∀ {s a r}, run s = .ok (a, r) → r.length < s.length

namespace Reader

def map (f : α → β) (rd : Reader α) : Reader β where
  run s := match rd.run s with
    | .error e => .error e
    | .ok (a, r) => .ok (f a, r)
  shorter {s b r} h := by
    split at h
    · cases h
    · rename_i hr
      cases h
      exact rd.shorter hr

end Reader

theorem length_skipSpace_le (s : List Char) : (skipSpace s).length ≤ s.length :=
  (List.dropWhile_suffix _).length_le

structure Manner where
  key : List Char → Except Fault (String × List Char)
  key_le : ∀ {s k r}, key s = .ok (k, r) → r.length ≤ s.length
  listClosed : Option Cause
  objectClosed : Cause
  objectEnded : Cause

def nextElement (manner : Manner) (first : Bool) (s : List Char) :
    Except Fault (Bool × List Char) :=
  match skipSpace s with
  | [] => .error ⟨.endInList, 0⟩
  | ']' :: r => .ok (false, r)
  | c :: r =>
    if first then .ok (true, c :: r)
    else if c = ',' then
      match skipSpace r with
      | [] => .error ⟨.endInValue, 0⟩
      | d :: r' => match d, manner.listClosed with
        | ']', some cause => .error (.within cause (d :: r'))
        | _, _ => .ok (true, d :: r')
    else .error (.within .listEndExpected (c :: r))

def nextKey (manner : Manner) (first : Bool) (s : List Char) :
    Except Fault (Option String × List Char) :=
  let key (r : List Char) := (manner.key r).map fun p => (some p.1, p.2)
  match skipSpace s with
  | [] => .error ⟨.endInObject, 0⟩
  | '}' :: r => .ok (none, r)
  | c :: r =>
    if first then
      if c = '"' then key r else .error (.within .keyExpected (c :: r))
    else if c = ',' then
      match skipSpace r with
      | [] => .error ⟨manner.objectEnded, 0⟩
      | '"' :: r' => key r'
      | '}' :: r' => .error (.within manner.objectClosed ('}' :: r'))
      | r' => .error (.within .keyExpected r')
    else .error (.within .objectEndExpected (c :: r))

def afterColon (rd : Reader α) : Reader α where
  run s := match skipSpace s with
    | [] => .error ⟨.endInObject, 0⟩
    | ':' :: r => rd.run r
    | r => .error (.within .colonExpected r)
  shorter {s a r} h := by
    have hs := length_skipSpace_le s
    split at h
    · cases h
    · rename_i he
      rw [he, List.length_cons] at hs
      have := rd.shorter h
      omega
    · cases h

theorem nextElement_le {manner first s b r} (h : nextElement manner first s = .ok (b, r)) :
    r.length ≤ s.length := by
  have hs := length_skipSpace_le s
  unfold nextElement at h
  split at h
  · cases h
  · rename_i he
    rw [he, List.length_cons] at hs
    cases h
    omega
  · rename_i c t _ he
    rw [he, List.length_cons] at hs
    split at h
    · cases h
      simpa using hs
    · split at h
      · have ht := length_skipSpace_le t
        split at h
        · cases h
        · rename_i hd
          rw [hd, List.length_cons] at ht
          split at h
          · cases h
          · cases h
            simp only [List.length_cons]
            omega
      · cases h

theorem nextKey_le {manner first s k r} (h : nextKey manner first s = .ok (k, r)) :
    r.length ≤ s.length := by
  have hk : ∀ {t}, (manner.key t).map (fun p => (some p.1, p.2)) = .ok (k, r) →
      r.length ≤ t.length := by
    intro t ht
    cases hm : manner.key t with
    | error e => rw [hm] at ht; cases ht
    | ok p =>
      rw [hm] at ht
      cases ht
      exact manner.key_le (k := p.1) (r := p.2) hm
  have hs := length_skipSpace_le s
  unfold nextKey at h
  simp only at h
  split at h
  · cases h
  · rename_i he
    rw [he, List.length_cons] at hs
    cases h
    omega
  · rename_i c t _ he
    rw [he, List.length_cons] at hs
    split at h
    · split at h
      · have := hk h
        omega
      · cases h
    · split at h
      · have ht := length_skipSpace_le t
        split at h
        · cases h
        · rename_i hd
          rw [hd, List.length_cons] at ht
          have := hk h
          omega
        · cases h
        · cases h
      · cases h

def elements (manner : Manner) (rd : Reader α) (first : Bool) (s : List Char) :
    Except Fault (List α × List Char) :=
  match hn : nextElement manner first s with
  | .error e => .error e
  | .ok (false, r) => .ok ([], r)
  | .ok (true, r) =>
    match hr : rd.run r with
    | .error e => .error e
    | .ok (a, r') =>
      have := nextElement_le hn
      have := rd.shorter hr
      match elements manner rd false r' with
      | .error e => .error e
      | .ok (as, r'') => .ok (a :: as, r'')
termination_by s.length

def members (manner : Manner) (step : σ → String → Reader σ) (acc : σ) (first : Bool)
    (s : List Char) : Except Fault (σ × List Char) :=
  match hn : nextKey manner first s with
  | .error e => .error e
  | .ok (none, r) => .ok (acc, r)
  | .ok (some k, r) =>
    match hr : (step acc k).run r with
    | .error e => .error e
    | .ok (acc', r') =>
      have := nextKey_le hn
      have := (step acc k).shorter hr
      members manner step acc' false r'
termination_by s.length

theorem elements_le {manner} {rd : Reader α} {first s a r}
    (h : elements manner rd first s = .ok (a, r)) : r.length ≤ s.length := by
  fun_induction elements manner rd first s generalizing a r with
  | case1 => cases h
  | case2 first s r' hn =>
    cases h
    exact nextElement_le hn
  | case3 => cases h
  | case4 => cases h
  | case5 first s r1 hn a r2 hr _ _ as' r3 _ ih =>
    cases h
    have h1 := nextElement_le hn
    have h2 := rd.shorter hr
    have h3 := ih ‹_›
    omega

theorem members_le {manner} {step : σ → String → Reader σ} {acc first s b r}
    (h : members manner step acc first s = .ok (b, r)) : r.length ≤ s.length := by
  fun_induction members manner step acc first s with
  | case1 => cases h
  | case2 acc first s r' hn =>
    cases h
    exact nextKey_le hn
  | case3 => cases h
  | case4 acc first s k r1 hn acc1 r2 hr _ _ ih =>
    have h1 := nextKey_le hn
    have h2 := (step acc k).shorter hr
    have h3 := ih h
    omega

def bracketed (list object other : List Char → Except Fault (α × List Char)) (s : List Char) :
    Except Fault (α × List Char) :=
  match skipSpace s with
  | '[' :: r => list r
  | '{' :: r => object r
  | r => other r

theorem bracketed_shorter {list object other : List Char → Except Fault (α × List Char)}
    (hl : ∀ {s a r}, list s = .ok (a, r) → r.length ≤ s.length)
    (ho : ∀ {s a r}, object s = .ok (a, r) → r.length ≤ s.length)
    (hx : ∀ {s a r}, other s = .ok (a, r) → r.length < s.length)
    {s a r} (h : bracketed list object other s = .ok (a, r)) : r.length < s.length := by
  have hs := length_skipSpace_le s
  unfold bracketed at h
  split at h
  · rename_i he
    rw [he, List.length_cons] at hs
    have := hl h
    omega
  · rename_i he
    rw [he, List.length_cons] at hs
    have := ho h
    omega
  · have := hx h
    omega

end DarkDrop.Json
