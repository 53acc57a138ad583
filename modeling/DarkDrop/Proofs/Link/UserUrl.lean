import DarkDrop.Link.Endpoint
import DarkDrop.Proofs.Url.Percent

namespace DarkDrop

namespace Url

structure Segment (s text : List Char) : Prop where
  decoded : decode? s = some text
  filled : s ≠ []
  bounded : ∀ c ∈ ['/', '\\', '?', '#'], c ∉ s
  undotted : isDot s = false ∧ isDotDot s = false

def ending (u : Url) (before : List (List Char)) (s : List Char) : Url :=
  { u with path := .segments (before ++ [s]) }

theorem dots_decode (s text : List Char) (dotted : isDot s = true ∨ isDotDot s = true)
    (decoded : decode? s = some text) : text = ['.'] ∨ text = ['.', '.'] := by
  obtain dot | dots := dotted
  · rw [one_dot s dot] at decoded
    exact .inl (Option.some.inj decoded).symm
  · rw [two_dots s dots] at decoded
    exact .inr (Option.some.inj decoded).symm

theorem segment_encoded (text : List Char) (filled : text ≠ []) (one : text ≠ ['.'])
    (two : text ≠ ['.', '.']) : Segment (encode inSegment text) text := by
  have decoded := decode_encode inSegment rfl text
  refine ⟨decoded, ?_, fun c separator => segment_bounded text c separator, ?_, ?_⟩
  · intro empty
    rw [empty, decode_of_bytes [] [] (by simp [decodeBytes, Text.bytes])] at decoded
    exact filled (Option.some.inj decoded).symm
  · refine Bool.eq_false_iff.mpr fun dot => ?_
    exact (dots_decode _ text (.inl dot) decoded).elim one two
  · refine Bool.eq_false_iff.mpr fun dots => ?_
    exact (dots_decode _ text (.inr dots) decoded).elim one two

theorem added_whole (l : List (List Char)) (s text : List Char) (last : Bool) (segment : Segment s text) :
    addSegment l s last = l ++ [s] := by
  rw [addSegment, if_neg (by simp [segment.undotted]), if_neg (by simp [segment.undotted])]

structure Whole (text : List Char) : Prop where
  filled : text ≠ []
  one : text ≠ ['.']
  two : text ≠ ['.', '.']
  calm : ∀ c ∈ text, isTabOrNewline c = false

def calmed (text : List Char) : List Char := text.filter (! isTabOrNewline ·)

def under (l : List (List Char)) : List (List Char) := if l = [[]] then [] else l

theorem push_calmed (l : List (List Char)) (text : List Char) (one : text ≠ ['.']) (two : text ≠ ['.', '.']) :
    pushSegment l text = addSegment (under l) (encode inSegment (calmed text)) true :=
  if_neg (by simp [one, two])

theorem calmed_calm (text : List Char) : ∀ c ∈ calmed text, isTabOrNewline c = false := by
  intro c member
  simpa using (List.mem_filter.mp member).2

theorem calmed_whole (text : List Char) (whole : Whole text) : calmed text = text :=
  List.filter_eq_self.mpr fun c member => by rw [whole.calm c member]; rfl

theorem push_whole (l : List (List Char)) (text : List Char) (whole : Whole text) :
    pushSegment l text = under l ++ [encode inSegment text] := by
  rw [push_calmed l text whole.one whole.two, calmed_whole text whole]
  exact added_whole _ _ text true (segment_encoded text whole.filled whole.one whole.two)

theorem push_ragged (l : List (List Char)) (text : List Char) (whole : Whole (calmed text)) :
    pushSegment l text = pushSegment l (calmed text) := by
  have undotted : text ≠ ['.'] ∧ text ≠ ['.', '.'] := by
    constructor
    · rintro rfl
      exact whole.one rfl
    · rintro rfl
      exact whole.two rfl
  rw [push_calmed l text undotted.1 undotted.2, push_calmed l (calmed text) whole.one whole.two,
    calmed_whole (calmed text) whole]

theorem unpushed (l : List (List Char)) (s text : List Char) (segment : Segment s text) :
    l ≠ under l ++ [s] := by
  rw [under]
  split
  case isTrue rooted =>
    rw [rooted]
    intro same
    exact segment.filled (List.singleton_inj.mp same).symm
  case isFalse => simp

-- A segment that stands for the text comes last only if the text is added as it is.
theorem push_torn (l : List (List Char)) (text s : List Char) (segment : Segment s text)
    (pushed : pushSegment l text = under l ++ [s]) : Whole text := by
  have one : text ≠ ['.'] := by
    rintro rfl
    exact unpushed l s _ segment pushed
  have two : text ≠ ['.', '.'] := by
    rintro rfl
    exact unpushed l s _ segment pushed
  have slashed : ∀ m, m ++ [[]] ≠ under l ++ [s] := by
    intro m same
    exact segment.filled (List.singleton_inj.mp (List.append_inj_right' same rfl)).symm
  rw [push_calmed l text one two, addSegment, if_pos rfl] at pushed
  split at pushed
  · cases slashed _ pushed
  · split at pushed
    · cases slashed _ pushed
    · have same := List.singleton_inj.mp (List.append_inj_right' pushed rfl)
      have decoded := segment.decoded
      rw [← same, decode_encode inSegment rfl] at decoded
      have calm : calmed text = text := Option.some.inj decoded
      refine ⟨?_, one, two, ?_⟩
      · rintro rfl
        exact segment.filled same.symm
      · intro c member
        simpa using List.filter_eq_self.mp calm c member

def Rooted (u : Url) : Prop := ∃ l host, u.path = .segments l ∧ u.host = some host

theorem bind_rooted {α : Type} (x : Except Error α) (next : α → Except Error Url) (u : Url)
    (read : (x >>= next) = .ok u) (each : ∀ a, next a = .ok u → Rooted u) : Rooted u := by
  cases x with
  | error e => cases read
  | ok a => exact each a read

theorem tail_rooted (k : Kind) (u : Url) (s : List Char) (authority : ∃ host, u.host = some host) :
    Rooted (readTail k (rootedPath k) u s) := by
  obtain ⟨host, known⟩ := authority
  rw [Rooted, readTail]
  simp only [rootedPath]
  split
  · exact ⟨_, host, rfl, known⟩
  · exact ⟨_, host, rfl, known⟩

theorem authority_rooted (port : Nat) (scheme s : List Char) (u : Url)
    (read : readAuthority (.special port) scheme s = .ok u) : Rooted u := by
  refine bind_rooted _ _ u read ?_
  rintro ⟨user, password, rest⟩ read
  simp only [reduceCtorEq, if_false] at read
  split at read
  · cases read
  · refine bind_rooted _ _ u read ?_
    intro host read
    split at read
    · cases read
    · split at read
      all_goals
        refine bind_rooted _ _ u read ?_
        rintro ⟨port, rest⟩ last
        cases last
        exact tail_rooted _ _ rest ⟨host, rfl⟩

theorem tidy_framed (a b : Char) (s : List Char) (first : 0x20 < a.toNat) (last : 0x20 < b.toNat) :
    tidy (a :: (s ++ [b])) = (a :: (s ++ [b])).filter (! isTabOrNewline ·) := by
  rw [tidy, List.dropWhile_cons_of_neg (by simpa using first), ← List.cons_append, List.reverse_append,
    List.reverse_singleton, List.singleton_append, List.dropWhile_cons_of_neg (by simpa using last)]
  simp

theorem scheme_read (scheme host : String) (socket : scheme = "ws" ∨ scheme = "wss") :
    ∃ port rest, kindOf scheme.toList = .special port ∧
      scheme? (tidy (scheme ++ "://" ++ host ++ "/").toList) = some (scheme.toList, rest) := by
  have framed : (scheme ++ "://" ++ host ++ "/").toList =
      scheme.toList ++ ':' :: '/' :: '/' :: (host.toList ++ ['/']) := by
    simp [String.toList_append]
  have tidied (more : List Char) : tidy ('w' :: more ++ ':' :: '/' :: '/' :: (host.toList ++ ['/'])) =
      ('w' :: more ++ ':' :: '/' :: '/' :: (host.toList ++ ['/'])).filter (! isTabOrNewline ·) := by
    have ended : 'w' :: more ++ ':' :: '/' :: '/' :: (host.toList ++ ['/']) =
        'w' :: (more ++ ':' :: '/' :: '/' :: host.toList ++ ['/']) := by simp
    rw [ended, tidy_framed 'w' '/' _ (by decide) (by decide)]
  rw [framed]
  obtain rfl | rfl := socket
  · refine ⟨80, '/' :: '/' :: (host.toList ++ ['/']).filter (! isTabOrNewline ·), by decide, ?_⟩
    rw [show "ws".toList = 'w' :: ['s'] from rfl, tidied]
    simp [scheme?, isTabOrNewline, isSchemeChar]
  · refine ⟨443, '/' :: '/' :: (host.toList ++ ['/']).filter (! isTabOrNewline ·), by decide, ?_⟩
    rw [show "wss".toList = 'w' :: ['s', 's'] from rfl, tidied]
    simp [scheme?, isTabOrNewline, isSchemeChar]

theorem ending_written (root : Url) (before : List (List Char)) (authority : ∃ host, root.host = some host) :
    ∃ front back, ∀ s, (root.ending before s).text = front ++ '/' :: s ++ back := by
  obtain ⟨host, known⟩ := authority
  have fixed : ∀ s, (root.ending before s).authorityText = root.authorityText := by
    intro s
    simp only [authorityText, ending, known]
  have path : ∀ s, (root.ending before s).path.write = segmentsText before ++ '/' :: s := by
    intro s
    simp only [ending, Path.write, segmentsText, List.flatMap_append, List.flatMap_singleton]
  refine ⟨root.scheme ++ ':' :: root.authorityText ++ segmentsText before,
    root.query.elim [] (List.cons '?') ++ root.fragment.elim [] (List.cons '#'), fun s => ?_⟩
  have query : (root.ending before s).query = root.query := rfl
  have fragment : (root.ending before s).fragment = root.fragment := rfl
  rw [text, fixed s, path s, query, fragment]
  simp only [List.append_assoc, List.cons_append]
  cases root.query <;> cases root.fragment <;> rfl

end Url

namespace Endpoint

theorem base_rooted (e : Endpoint) (root : Url) (reached : e.base = .ok root) : root.Rooted := by
  rw [base] at reached
  split at reached
  case h_1 => cases reached
  case h_2 u read =>
    cases reached
    obtain ⟨port, rest, socket, found⟩ := Url.scheme_read (if e.secure then "wss" else "ws") e.host
      (by cases e.secure <;> simp)
    rw [Url.ofString, Url.read, found] at read
    simp only [socket] at read
    exact Url.authority_rooted port _ _ _ read

theorem url_pushed (e : Endpoint) (root : Url) (reached : e.base = .ok root) :
    ∃ l, ∀ user, user ≠ "" →
      e.url user = .ok { root with path := .segments (Url.pushSegment l user.toList) } := by
  obtain ⟨l, _, path, _⟩ := e.base_rooted root reached
  refine ⟨e.segments.foldl Url.pushSegment (Url.openPath l), fun user named => ?_⟩
  rw [url, if_neg (by simpa using named), reached]
  simp only [Except.map, Url.withSegments, path, List.foldl_append, List.foldl_cons, List.foldl_nil]

theorem whole_named (user : String) (whole : Url.Whole user.toList) : user ≠ "" := by
  rintro rfl
  exact whole.filled rfl

structure OneSegment (e : Endpoint) (root : Url) (before : List (List Char)) (front back : List Char) :
    Prop where
  written : ∀ s, (root.ending before s).text = front ++ '/' :: s ++ back
  reached : ∀ user, user ≠ "" → ∃ path, e.url user = .ok { root with path := path }
  whole : ∀ user, Url.Whole user.toList →
    ∃ s, Url.Segment s user.toList ∧ e.url user = .ok (root.ending before s)
  torn : ∀ user, user ≠ "" → ¬ Url.Whole user.toList →
    ∀ s, Url.Segment s user.toList → e.url user ≠ .ok (root.ending before s)
  ragged : ∀ user, Url.Whole (Url.calmed user.toList) →
    e.url user = e.url (String.ofList (Url.calmed user.toList))
  apart : ∀ user other url next, Url.Whole user.toList → Url.Whole other.toList →
    e.url user = .ok url → e.url other = .ok next → url.text = next.text → user = other

theorem url_one_segment (e : Endpoint) :
    (∃ x, ∀ user, user ≠ "" → e.url user = .error x) ∨
      ∃ root before front back, e.OneSegment root before front back := by
  cases base : e.base with
  | error x =>
      refine .inl ⟨x, fun user named => ?_⟩
      rw [url, if_neg (by simpa using named), base]
      rfl
  | ok root =>
      obtain ⟨l, pushed⟩ := e.url_pushed root base
      obtain ⟨_, host, _, known⟩ := e.base_rooted root base
      obtain ⟨front, back, written⟩ := root.ending_written (Url.under l) ⟨host, known⟩
      have placed : ∀ user, Url.Whole user.toList →
          e.url user = .ok (root.ending (Url.under l) (Url.encode Url.inSegment user.toList)) := by
        intro user whole
        rw [pushed user (whole_named user whole), Url.push_whole l user.toList whole]
        rfl
      refine .inr ⟨root, Url.under l, front, back, written, ?_, ?_, ?_, ?_, ?_⟩
      · intro user named
        exact ⟨_, pushed user named⟩
      · intro user whole
        exact ⟨_, Url.segment_encoded _ whole.filled whole.one whole.two, placed user whole⟩
      · intro user named torn s segment same
        rw [pushed user named] at same
        injection same with same
        exact torn (Url.push_torn l user.toList s segment (Url.Path.segments.inj (congrArg Url.path same)))
      · intro user whole
        have filled : user ≠ "" := by
          rintro rfl
          exact whole.filled rfl
        rw [pushed user filled, Url.push_ragged l user.toList whole,
          pushed (String.ofList (Url.calmed user.toList)) (whole_named _ (by rwa [String.toList_ofList])),
          String.toList_ofList]
      · intro user other url next first second here there same
        cases (placed user first).symm.trans here
        cases (placed other second).symm.trans there
        rw [written, written] at same
        have encoded := List.append_cancel_left (List.append_cancel_right same)
        exact String.toList_inj.mp (Url.encode_injective _ rfl _ _ (List.cons.inj encoded).2)

-- A tab in an id is dropped, so that two ids share a URL; a dot alone makes no segment, and with a
-- tab in front two dots take away a segment of the endpoint's own path.
theorem torn_ids :
    (∃ url, ({} : Endpoint).url "a\tb" = .ok url ∧ ({} : Endpoint).url "ab" = .ok url ∧
      ¬ ∃ front back s t, url.text = front ++ '/' :: s ++ back ∧ url.text = front ++ '/' :: t ++ back ∧
        Url.decode? s = some "a\tb".toList ∧ Url.decode? t = some "ab".toList) ∧
    (({} : Endpoint).url ".").toOption.map Url.toString = some "ws://localhost:8000/api/ws" ∧
    (({} : Endpoint).url "\t..").toOption.map Url.toString = some "ws://localhost:8000/api/" := by
  have found : ({} : Endpoint).base.toOption.isSome = true := by decide +kernel
  refine ⟨?_, by decide +kernel, by decide +kernel⟩
  cases base : ({} : Endpoint).base with
  | error x =>
      rw [base] at found
      cases found
  | ok root =>
      obtain ⟨l, pushed⟩ := url_pushed {} root base
      have same : Url.pushSegment l "a\tb".toList = Url.pushSegment l "ab".toList :=
        Url.push_ragged l _ ⟨by decide, by decide, by decide, Url.calmed_calm _⟩
      refine ⟨_, pushed "a\tb" (by decide), same ▸ pushed "ab" (by decide), ?_⟩
      rintro ⟨front, back, s, t, here, there, tabbed, plain⟩
      have segments := List.append_cancel_left (List.append_cancel_right (here.symm.trans there))
      rw [(List.cons.inj segments).2, plain] at tabbed
      exact absurd (Option.some.inj tabbed) (by decide)

end Endpoint
end DarkDrop
