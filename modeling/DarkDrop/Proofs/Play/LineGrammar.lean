import DarkDrop.Play.TypedLine
import DarkDrop.Proofs.Json.ScalarText
import DarkDrop.Proofs.Text.Trimming

namespace DarkDrop.Text

def Denotes (s : List Char) (n : Nat) : Prop :=
  ∃ ds, (s = ds ∨ s = '+' :: ds) ∧ ds ≠ [] ∧ (∀ d ∈ ds, d.isDigit = true) ∧ Nat.ofDigitChars 10 ds 0 = n

theorem word_value (v : Nat) (n : UInt64) :
    (if v ≤ wordLimit then some (UInt64.ofNat v) else none) = some n ↔ v = n.toNat := by
  have bound := n.toNat_lt
  have limit : wordLimit = 2 ^ 64 - 1 := rfl
  by_cases fits : v ≤ wordLimit
  · have small : v < UInt64.size := by
      change v < 2 ^ 64
      omega
    rw [if_pos fits, Option.some.injEq, ← UInt64.toNat_inj, UInt64.toNat_ofNat_of_lt' small]
  · rw [if_neg fits]
    constructor
    · intro none
      cases none
    · intro same
      omega

theorem count_digits (ds : List Char) (n : UInt64) :
    (if ds.isEmpty || ! ds.all Char.isDigit then none
      else if value ds ≤ wordLimit then some (UInt64.ofNat (value ds)) else none) = some n ↔
      ds ≠ [] ∧ (∀ d ∈ ds, d.isDigit = true) ∧ Nat.ofDigitChars 10 ds 0 = n.toNat := by
  by_cases digits : ds ≠ [] ∧ ∀ d ∈ ds, d.isDigit = true
  · have known : (ds.isEmpty || ! ds.all Char.isDigit) = false := by simpa using digits
    rw [known, if_neg Bool.false_ne_true, word_value, value_decimal, ← and_assoc, and_iff_right digits]
  · have unknown : (ds.isEmpty || ! ds.all Char.isDigit) = true := by
      rw [not_and_or, not_not, not_forall] at digits
      simpa using digits
    rw [unknown, if_pos rfl, ← and_assoc]
    exact ⟨fun none => (by cases none), fun stands => absurd stands.1 digits⟩

theorem read_count_iff (s : List Char) (n : UInt64) : readCount s = some n ↔ Denotes s n.toNat := by
  by_cases sign : s.head? = some '+'
  · obtain ⟨r, rfl⟩ := List.head?_eq_some_iff.mp sign
    refine (count_digits r n).trans ⟨fun stands => ⟨r, .inr rfl, stands⟩, ?_⟩
    rintro ⟨ds, rfl | same, stands⟩
    · exact absurd (stands.2.1 '+' (by simp)) (by decide)
    · cases same
      exact stands
  · have unsigned : readCount s = if s.isEmpty || ! s.all Char.isDigit then none
        else if value s ≤ wordLimit then some (UInt64.ofNat (value s)) else none := by
      unfold readCount
      split
      · exact absurd rfl sign
      · rfl
    rw [unsigned, count_digits]
    refine ⟨fun stands => ⟨s, .inl rfl, stands⟩, ?_⟩
    rintro ⟨ds, rfl | rfl, stands⟩
    · exact stands
    · exact absurd rfl sign

theorem count_none (s : List Char) (other : ∀ n : UInt64, ¬ Denotes s n.toNat) : readCount s = none := by
  rw [Option.eq_none_iff_forall_ne_some]
  exact fun n counted => other n ((read_count_iff s n).mp counted)

theorem denotes_digits (n : Nat) : Denotes (Nat.toDigits 10 n) n :=
  ⟨_, .inl rfl, Nat.toDigits_ne_nil, digits_digit n, Nat.ofDigitChars_ten_toDigits⟩

theorem digit_plain (d : Char) (digit : d.isDigit = true) : isBlank d = false := by
  have range : 48 ≤ d.toNat ∧ d.toNat ≤ 57 := by
    simpa [Char.isDigit, UInt32.le_iff_toNat_le] using digit
  simp only [isBlank, Bool.or_eq_false_iff, Bool.and_eq_false_iff, decide_eq_false_iff_not,
    beq_eq_false_iff_ne]
  omega

theorem digits_fixed (n : Nat) : trimChars (Nat.toDigits 10 n) = Nat.toDigits 10 n := by
  have plain : ∀ d ∈ Nat.toDigits 10 n, isBlank d = false := fun d member =>
    digit_plain d (digits_digit n d member)
  exact trim_fixed _ (fun d head => plain d (List.mem_of_head? head))
    fun d last => plain d (List.mem_of_getLast? last)

end DarkDrop.Text

namespace DarkDrop.TypedLine
open Text

def Parted (rest : List Char) : Prop := ∀ c, rest.head? = some c → isBlank c = true

theorem cut_word (word rest : List Char) (plain : ∀ c ∈ word, isBlank c = false) (parted : Parted rest) :
    cutAtBlank (word ++ rest) = (word, rest.drop 1) := by
  have through : ∀ c ∈ word, (! isBlank c) = true := fun c member => by simp [plain c member]
  have stops : rest.takeWhile (! isBlank ·) = [] ∧ rest.dropWhile (! isBlank ·) = rest := by
    cases rest with
    | nil => exact ⟨rfl, rfl⟩
    | cons c rest => simp [parted c rfl]
  rw [cutAtBlank, List.takeWhile_append_of_pos through, List.dropWhile_append_of_pos through, stops.1,
    stops.2, List.append_nil]

theorem parted_trimmed (rest : List Char) (parted : Parted rest) : Parted (trimEnd rest) := by
  intro c head
  obtain ⟨tail, _, same⟩ := trim_end_split rest
  refine parted c ?_
  rw [← same, List.head?_append, head, Option.some_or]

theorem slash_trimmed (word rest : List Char) (plain : ∀ c ∈ word, isBlank c = false) :
    trimChars ('/' :: word ++ rest) = '/' :: (word ++ trimEnd rest) := by
  obtain ⟨tail, blank, same⟩ := trim_end_split rest
  have alone := trim_surrounded [] ('/' :: (word ++ trimEnd rest)) tail (by simp [Blank]) blank
  rw [List.nil_append, List.cons_append, List.append_assoc, same] at alone
  rw [List.cons_append, alone]
  refine trim_fixed _ (fun c head => ?_) fun c last => ?_
  · cases head
    decide
  · cases core : trimEnd rest with
    | nil =>
        rw [core, List.append_nil] at last
        rcases List.mem_cons.mp (List.mem_of_getLast? last) with rfl | member
        · decide
        · exact plain c member
    | cons b inner =>
        rw [← List.cons_append, List.getLast?_append_of_ne_nil _ (by simp [core])] at last
        exact trim_end_last rest c last

-- The first character behind a word is white space, so that the rest can be trimmed without it.
theorem argument_trimmed (rest : List Char) (parted : Parted rest) :
    trimChars ((trimEnd rest).drop 1) = trimChars rest := by
  obtain ⟨tail, blank, same⟩ := trim_end_split rest
  cases core : trimEnd rest with
  | nil =>
      rw [(trim_nil rest).mpr ((trim_end_nil rest).mp core)]
      rfl
  | cons b inner =>
      have space : isBlank b = true := parted_trimmed rest parted b (by rw [core]; rfl)
      have alone := trim_surrounded [b] inner tail (by simpa [Blank] using space) blank
      rw [List.singleton_append, ← core, same] at alone
      rw [List.drop_one, List.tail_cons, alone]

theorem read_slash (word rest : List Char) (remembered : Option String)
    (plain : ∀ c ∈ word, isBlank c = false) (parted : Parted rest) :
    read ('/' :: word ++ rest) remembered = ofWord (.ofList word) (trimChars rest) remembered := by
  have cut := cut_word word _ plain (parted_trimmed rest parted)
  rw [read, slash_trimmed word rest plain]
  simp only [cut, argument_trimmed rest parted]

def loginWords : List String := ["login", "l"]
def joinWords : List String := ["join", "j"]
def playWords : List String := ["play", "p"]
def yesWords : List String := ["yes", "y"]
def plainWords : List (String × Command) :=
  [("create", .createSession), ("c", .createSession), ("leave", .leaveSession), ("start", .startGame),
    ("s", .startGame), ("disconnect", .disconnect), ("dc", .disconnect), ("back", .abandonQuickJoin),
    ("forget", .forgetCachedUser), ("quit", .quit), ("q", .quit)]
def words : List String := loginWords ++ joinWords ++ playWords ++ yesWords ++ plainWords.map Prod.fst

theorem words_plain : ∀ word ∈ words, ∀ c ∈ word.toList, isBlank c = false := by
  have all : words.all (fun word => word.toList.all fun c => ! isBlank c) = true := by decide
  simpa using all

theorem read_word (word : String) (known : word ∈ words) (rest : List Char) (remembered : Option String)
    (parted : Parted rest) :
    read ('/' :: word.toList ++ rest) remembered = ofWord word (trimChars rest) remembered := by
  rw [read_slash word.toList rest remembered (words_plain word known) parted, String.ofList_toList]

theorem blank_parted (space arg : List Char) (blank : Blank space) (some : space ≠ []) :
    Parted (space ++ arg) := by
  intro c head
  cases space with
  | nil => exact absurd rfl some
  | cons b more =>
      cases head
      exact blank c (by simp)

theorem read_argument (word : String) (known : word ∈ words) (space arg : List Char)
    (remembered : Option String) (some : space ≠ []) (blank : Blank space) (fixed : trimChars arg = arg) :
    read ('/' :: word.toList ++ space ++ arg) remembered = ofWord word arg remembered := by
  have trimmed := trim_surrounded space arg [] blank (by simp [Blank])
  rw [List.append_nil, fixed] at trimmed
  rw [List.append_assoc, read_word word known _ remembered (blank_parted space arg blank some), trimmed]

theorem read_alone (word : String) (known : word ∈ words) (rest : List Char) (remembered : Option String)
    (blank : Blank rest) : read ('/' :: word.toList ++ rest) remembered = ofWord word [] remembered := by
  have parted : Parted rest := fun c head => blank c (List.mem_of_head? head)
  rw [read_word word known rest remembered parted, (trim_nil rest).mpr blank]

theorem login_word (word : String) (known : word ∈ loginWords) (arg : List Char) (remembered : Option String) :
    ofWord word arg remembered = withArgument "login" "/login <user id>" .login arg := by
  rcases (by simpa [loginWords] using known : word = "login" ∨ word = "l") with rfl | rfl <;> rfl

theorem join_word (word : String) (known : word ∈ joinWords) (arg : List Char) (remembered : Option String) :
    ofWord word arg remembered = withArgument "join" "/join <room id>" .joinSession arg := by
  rcases (by simpa [joinWords] using known : word = "join" ∨ word = "j") with rfl | rfl <;> rfl

theorem play_word (word : String) (known : word ∈ playWords) (arg : List Char) (remembered : Option String) :
    ofWord word arg remembered = playing arg := by
  rcases (by simpa [playWords] using known : word = "play" ∨ word = "p") with rfl | rfl <;> rfl

theorem yes_word (word : String) (known : word ∈ yesWords) (arg : List Char) (remembered : Option String) :
    ofWord word arg remembered = yes remembered := by
  rcases (by simpa [yesWords] using known : word = "yes" ∨ word = "y") with rfl | rfl <;> rfl

theorem plain_word (word : String) (c : Command) (known : (word, c) ∈ plainWords) (arg : List Char)
    (remembered : Option String) : ofWord word arg remembered = .command c := by
  have all : ∀ entry ∈ plainWords, ofWord entry.1 arg remembered = .command entry.2 := by
    simp [plainWords, ofWord]
  exact all _ known

theorem other_word (word : String) (strange : word ∉ words) (arg : List Char) (remembered : Option String) :
    ofWord word arg remembered = .unknown ("/" ++ word) := by
  unfold ofWord
  split <;> first | rfl | exact absurd (by decide) strange

theorem word_cases (word : String) (known : word ∈ words) : word ∈ loginWords ∨ word ∈ joinWords ∨
    word ∈ playWords ∨ word ∈ yesWords ∨ ∃ c, (word, c) ∈ plainWords := by
  simpa [words, or_assoc] using known

theorem argument_given (name usage : String) (make : String → Command) (arg : List Char) (c : Command) :
    withArgument name usage make arg = .command c ↔ arg ≠ [] ∧ make (.ofList arg) = c := by
  cases arg <;> simp [withArgument]

theorem column_given (arg : List Char) (c : Command) :
    playing arg = .command c ↔ ∃ n, readCount arg = some n ∧ c = .play n := by
  rw [playing]
  cases counted : readCount arg <;> simp [eq_comm]

theorem word_answers (word : String) (arg : List Char) (remembered : Option String) :
    ofWord word arg remembered ≠ .empty := by
  by_cases known : word ∈ words
  · rcases word_cases word known with login | join | play | yes | ⟨c, plain⟩
    · rw [login_word word login, withArgument]
      split <;> simp
    · rw [join_word word join, withArgument]
      split <;> simp
    · rw [play_word word play, playing]
      split <;> simp
    · rw [yes_word word yes]
      cases remembered <;> simp [TypedLine.yes]
    · simp [plain_word word c plain]
  · simp [other_word word known]

theorem word_command (word : String) (arg : List Char) (remembered : Option String) (c : Command)
    (given : ofWord word arg remembered = .command c) :
    (arg ≠ [] ∧ .login (.ofList arg) = c) ∨ (arg ≠ [] ∧ .joinSession (.ofList arg) = c) ∨
      (∃ n, readCount arg = some n ∧ c = .play n) ∨ (∃ user, remembered = some user ∧ c = .login user) ∨
      c ∈ plainWords.map Prod.snd := by
  by_cases known : word ∈ words
  · rcases word_cases word known with login | join | play | yes | ⟨other, plain⟩
    · rw [login_word word login, argument_given] at given
      exact .inl given
    · rw [join_word word join, argument_given] at given
      exact .inr (.inl given)
    · rw [play_word word play, column_given] at given
      exact .inr (.inr (.inl given))
    · rw [yes_word word yes] at given
      cases remembered with
      | none => cases given
      | some user =>
          cases given
          exact .inr (.inr (.inr (.inl ⟨user, rfl, rfl⟩)))
    · rw [plain_word word other plain] at given
      cases given
      exact .inr (.inr (.inr (.inr (List.mem_map_of_mem plain))))
  · rw [other_word word known] at given
    cases given

theorem read_blank (line : List Char) (remembered : Option String) (blank : Blank line) :
    read line remembered = .empty := by
  rw [read, (trim_nil line).mpr blank]

theorem read_slashed (line rest : List Char) (remembered : Option String)
    (slash : trimChars line = '/' :: rest) : read line remembered =
      ofWord (.ofList (cutAtBlank rest).1) (trimChars (cutAtBlank rest).2) remembered := by
  rw [read, slash]
  rfl

theorem read_bare (line : List Char) (remembered : Option String) (text : ¬ Blank line)
    (bare : (trimChars line).head? ≠ some '/') : read line remembered = ofBare (trimChars line) := by
  unfold read
  split
  · rename_i nothing
    exact absurd ((trim_nil line).mp nothing) text
  · rename_i slash
    rw [slash] at bare
    exact absurd rfl bare
  · rfl

theorem bare_command (s : List Char) (c : Command) (given : ofBare s = .command c) :
    (∃ n, readCount s = some n ∧ c = .play n) ∨ (readCount s = none ∧ c = .login (.ofList s)) := by
  rw [ofBare] at given
  cases counted : readCount s with
  | none =>
      rw [counted] at given
      cases given
      exact .inr ⟨rfl, rfl⟩
  | some n =>
      rw [counted] at given
      cases given
      exact .inl ⟨n, rfl, rfl⟩

-- A user to log in, or a room to join, is a part of the line without white space at
-- its ends, or else it is the remembered user.
theorem read_given (line : List Char) (remembered : Option String) (c : Command)
    (given : read line remembered = .command c) :
    (∃ s, s ≠ [] ∧ trimChars s = s ∧ (c = .login (.ofList s) ∨ c = .joinSession (.ofList s))) ∨
      (∃ user, remembered = some user ∧ c = .login user) ∨ (∃ n, c = .play n) ∨
      c ∈ plainWords.map Prod.snd := by
  by_cases blank : Blank line
  · rw [read_blank line remembered blank] at given
    cases given
  by_cases slash : (trimChars line).head? = some '/'
  · obtain ⟨rest, same⟩ := List.head?_eq_some_iff.mp slash
    rw [read_slashed line rest remembered same] at given
    rcases word_command _ _ remembered c given with ⟨some, rfl⟩ | ⟨some, rfl⟩ | ⟨n, _, rfl⟩ | user | plain
    · exact .inl ⟨_, some, trim_again _, .inl rfl⟩
    · exact .inl ⟨_, some, trim_again _, .inr rfl⟩
    · exact .inr (.inr (.inl ⟨n, rfl⟩))
    · exact .inr (.inl user)
    · exact .inr (.inr (.inr plain))
  · rw [read_bare line remembered blank slash] at given
    rcases bare_command _ c given with ⟨n, _, rfl⟩ | ⟨_, rfl⟩
    · exact .inr (.inr (.inl ⟨n, rfl⟩))
    · exact .inl ⟨_, fun nothing => blank ((trim_nil line).mp nothing), trim_again line, .inl rfl⟩

theorem given_fixed (s : List Char) (text : s ≠ []) (fixed : trimChars s = s) :
    String.ofList s ≠ "" ∧ Text.trim (.ofList s) = .ofList s := by
  refine ⟨fun nothing => text ?_, by rw [Text.trim, String.toList_ofList, fixed]⟩
  rw [← String.toList_ofList (l := s), nothing]
  rfl

theorem login_read (line : List Char) (remembered : Option String) (user : String)
    (known : ∀ other, remembered = some other → other ≠ "" ∧ Text.trim other = other)
    (given : read line remembered = .command (.login user)) : user ≠ "" ∧ Text.trim user = user := by
  rcases read_given line remembered _ given with ⟨s, text, fixed, same | same⟩ | ⟨other, same, now⟩ |
    ⟨n, same⟩ | plain
  · cases same
    exact given_fixed s text fixed
  · cases same
  · cases now
    exact known user same
  · cases same
  · simp [plainWords] at plain

theorem join_read (line : List Char) (remembered : Option String) (room : String)
    (given : read line remembered = .command (.joinSession room)) : room ≠ "" ∧ Text.trim room = room := by
  rcases read_given line remembered _ given with ⟨s, text, fixed, same | same⟩ | ⟨other, same, now⟩ |
    ⟨n, same⟩ | plain
  · cases same
  · cases same
    exact given_fixed s text fixed
  · cases now
  · cases same
  · simp [plainWords] at plain

structure Grammar (remembered : Option String) : Prop where
  surrounded : ∀ before line after, Blank before → Blank after →
    read (before ++ line ++ after) remembered = read line remembered
  blank : ∀ line, read line remembered = .empty ↔ Blank line
  column : ∀ line, ¬ Blank line → (trimChars line).head? ≠ some '/' → ∀ n : UInt64,
    read line remembered = .command (.play n) ↔ Denotes (trimChars line) n.toNat
  user : ∀ line, ¬ Blank line → (trimChars line).head? ≠ some '/' →
    (∀ n : UInt64, ¬ Denotes (trimChars line) n.toNat) →
    read line remembered = .command (.login (.ofList (trimChars line)))
  login : ∀ word ∈ loginWords, ∀ space arg, space ≠ [] → Blank space → arg ≠ [] → trimChars arg = arg →
    read ('/' :: word.toList ++ space ++ arg) remembered = .command (.login (.ofList arg))
  join : ∀ word ∈ joinWords, ∀ space arg, space ≠ [] → Blank space → arg ≠ [] → trimChars arg = arg →
    read ('/' :: word.toList ++ space ++ arg) remembered = .command (.joinSession (.ofList arg))
  play : ∀ word ∈ playWords, ∀ space, space ≠ [] → Blank space → ∀ n : UInt64,
    read ('/' :: word.toList ++ space ++ Nat.toDigits 10 n.toNat) remembered = .command (.play n)
  plain : ∀ word c, (word, c) ∈ plainWords → ∀ rest, Parted rest →
    read ('/' :: word.toList ++ rest) remembered = .command c
  yes : ∀ word ∈ yesWords, ∀ rest, Parted rest → ∀ user, remembered = some user →
    read ('/' :: word.toList ++ rest) remembered = .command (.login user)
  argumentless : ∀ rest, Blank rest →
    (∀ word ∈ loginWords,
      read ('/' :: word.toList ++ rest) remembered = .invalid "login" "usage: /login <user id>") ∧
    (∀ word ∈ joinWords,
      read ('/' :: word.toList ++ rest) remembered = .invalid "join" "usage: /join <room id>") ∧
    (∀ word ∈ yesWords, remembered = none →
      read ('/' :: word.toList ++ rest) remembered = .invalid "yes" "no remembered user id")
  numberless : ∀ word ∈ playWords, ∀ rest, Parted rest → (∀ n : UInt64, ¬ Denotes (trimChars rest) n.toNat) →
    read ('/' :: word.toList ++ rest) remembered = .invalid "play" "usage: /play <column>"
  unknown : ∀ line word, (trimChars line).takeWhile (! isBlank ·) = '/' :: word → .ofList word ∉ words →
    read line remembered = .unknown (.ofList ('/' :: word))
  logsIn : (∀ user, remembered = some user → user ≠ "" ∧ Text.trim user = user) → ∀ line user,
    read line remembered = .command (.login user) → user ≠ "" ∧ Text.trim user = user ∧
      ∀ c : Client, c.execute (.login user) = (c, [.connect user, .render])
  joins : ∀ line room, read line remembered = .command (.joinSession room) →
    room ≠ "" ∧ Text.trim room = room ∧
      ∀ c : Client, c.execute (.joinSession room) = (c, [.joinSession room, .render])

theorem line_grammar (remembered : Option String) : Grammar remembered where
  surrounded before line after leads trails := by
    rw [read, trim_surrounded before line after leads trails, read]
  blank line := by
    refine ⟨fun empty => ?_, read_blank line remembered⟩
    by_contra text
    by_cases slash : (trimChars line).head? = some '/'
    · obtain ⟨rest, same⟩ := List.head?_eq_some_iff.mp slash
      rw [read_slashed line rest remembered same] at empty
      exact word_answers _ _ remembered empty
    · rw [read_bare line remembered text slash, ofBare] at empty
      split at empty <;> cases empty
  column line text bare n := by
    rw [read_bare line remembered text bare, ← read_count_iff, ofBare]
    cases counted : readCount (trimChars line) <;> simp
  user line text bare other := by
    have none := count_none (trimChars line) other
    rw [read_bare line remembered text bare, ofBare, none]
  login word known space arg some blank text fixed := by
    rw [read_argument word (by simp [words, known]) space arg remembered some blank fixed,
      login_word word known, (argument_given _ _ _ _ _).mpr ⟨text, rfl⟩]
  join word known space arg some blank text fixed := by
    rw [read_argument word (by simp [words, known]) space arg remembered some blank fixed,
      join_word word known, (argument_given _ _ _ _ _).mpr ⟨text, rfl⟩]
  play word known space some blank n := by
    have digits := denotes_digits n.toNat
    rw [read_argument word (by simp [words, known]) space _ remembered some blank (digits_fixed n.toNat),
      play_word word known, column_given]
    exact ⟨n, (read_count_iff _ n).mpr digits, rfl⟩
  plain word c known rest parted := by
    have listed : word ∈ plainWords.map Prod.fst := List.mem_map_of_mem known
    rw [read_word word (by simp [words, listed]) rest remembered parted, plain_word word c known]
  yes word known rest parted user same := by
    rw [read_word word (by simp [words, known]) rest remembered parted, yes_word word known, same, yes]
  argumentless rest blank := by
    refine ⟨fun word known => ?_, fun word known => ?_, fun word known none => ?_⟩
    · rw [read_alone word (by simp [words, known]) rest remembered blank, login_word word known]
      rfl
    · rw [read_alone word (by simp [words, known]) rest remembered blank, join_word word known]
      rfl
    · rw [read_alone word (by simp [words, known]) rest remembered blank, yes_word word known, none]
      rfl
  numberless word known rest parted other := by
    have none := count_none (trimChars rest) other
    rw [read_word word (by simp [words, known]) rest remembered parted, play_word word known, playing, none]
  unknown line word cut strange := by
    have slash : (trimChars line).head? = some '/' := by
      rw [← List.takeWhile_append_dropWhile (p := (! isBlank ·)) (l := trimChars line), cut]
      rfl
    obtain ⟨rest, same⟩ := List.head?_eq_some_iff.mp slash
    have first : (cutAtBlank rest).1 = word := by
      rw [same, List.takeWhile_cons_of_pos (by decide)] at cut
      exact (List.cons.inj cut).2
    rw [read_slashed line rest remembered same, first, other_word _ strange]
    exact congrArg TypedLine.unknown (String.toList_inj.mp (by simp))
  logsIn known line user given := by
    obtain ⟨named, fixed⟩ := login_read line remembered user known given
    refine ⟨named, fixed, fun c => ?_⟩
    simp [Client.execute, fixed, named]
  joins line room given := by
    obtain ⟨named, fixed⟩ := join_read line remembered room given
    exact ⟨named, fixed, fun c => by rw [Client.execute, fixed]⟩

example : [read "/ login bob".toList none, read "/login\u00a0 bob ".toList none, read " +05\n".toList none,
    read "18446744073709551616".toList none] =
    [.unknown "/", .command (.login "bob"), .command (.play 5),
      .command (.login "18446744073709551616")] := by
  decide +kernel

end DarkDrop.TypedLine
