import Mathlib.Data.List.DropRight
import DarkDrop.Text.Blank

namespace DarkDrop.Text

def Blank (s : List Char) : Prop := ∀ c ∈ s, isBlank c = true

theorem trim_start_blank (before s : List Char) (blank : Blank before) :
    trimStart (before ++ s) = trimStart s :=
  List.dropWhile_append_of_pos blank

theorem trim_end_blank (s after : List Char) (blank : Blank after) : trimEnd (s ++ after) = trimEnd s := by
  have turned : Blank after.reverse := fun c member => blank c (List.mem_reverse.mp member)
  rw [trimEnd, List.reverse_append, List.dropWhile_append_of_pos turned, trimEnd]

theorem trim_start_nil (s : List Char) : trimStart s = [] ↔ Blank s := List.dropWhile_eq_nil_iff

theorem trim_end_nil (s : List Char) : trimEnd s = [] ↔ Blank s := List.rdropWhile_eq_nil_iff

theorem trim_start_plain (c : Char) (s : List Char) (plain : isBlank c = false) :
    trimStart (c :: s) = c :: s := by
  simp [trimStart, plain]

theorem trim_end_plain (s : List Char) (c : Char) (plain : isBlank c = false) :
    trimEnd (s ++ [c]) = s ++ [c] :=
  List.rdropWhile_concat_neg isBlank s c (by simp [plain])

theorem trim_start_append (s more : List Char) (text : ¬ Blank s) :
    trimStart (s ++ more) = trimStart s ++ more := by
  have left : (s.dropWhile isBlank).isEmpty = false := by
    rw [List.isEmpty_eq_false_iff]
    exact fun gone => text ((trim_start_nil s).mp gone)
  rw [trimStart, List.dropWhile_append, left, if_neg Bool.false_ne_true, trimStart]

theorem trim_start_head (s : List Char) (c : Char) (head : (trimStart s).head? = some c) :
    isBlank c = false := by
  have stopped := List.head?_dropWhile_not isBlank s
  rw [trimStart] at head
  rw [head] at stopped
  simpa using stopped

theorem trim_end_prefix (s : List Char) : trimEnd s <+: s := List.rdropWhile_prefix isBlank s

theorem trim_end_last (s : List Char) (c : Char) (last : (trimEnd s).getLast? = some c) :
    isBlank c = false := by
  rw [trimEnd, List.getLast?_reverse] at last
  exact trim_start_head _ c last

theorem trim_end_split (s : List Char) : ∃ tail, Blank tail ∧ trimEnd s ++ tail = s :=
  ⟨s.rtakeWhile isBlank, fun _ member => List.mem_rtakeWhile_imp member,
    List.rdropWhile_append_rtakeWhile⟩

theorem trim_surrounded (before s after : List Char) (leads : Blank before) (trails : Blank after) :
    trimChars (before ++ s ++ after) = trimChars s := by
  rw [trimChars, List.append_assoc, trim_start_blank before _ leads, trimChars]
  by_cases blank : Blank s
  · rw [trim_start_blank s after blank, (trim_start_nil after).mpr trails, (trim_start_nil s).mpr blank]
  · rw [trim_start_append s after blank, trim_end_blank _ after trails]

theorem trim_nil (s : List Char) : trimChars s = [] ↔ Blank s := by
  rw [trimChars, trim_end_nil]
  constructor
  · intro blank
    by_contra text
    obtain ⟨c, rest, same⟩ := List.exists_cons_of_ne_nil fun gone => text ((trim_start_nil s).mp gone)
    have plain := trim_start_head s c (by simp [same])
    have member := blank c (by simp [same])
    simp [plain] at member
  · intro blank
    rw [(trim_start_nil s).mpr blank]
    simp [Blank]

theorem trim_head (s : List Char) (c : Char) (head : (trimChars s).head? = some c) : isBlank c = false := by
  refine trim_start_head s c ?_
  obtain ⟨rest, same⟩ := trim_end_prefix (trimStart s)
  rw [trimChars] at head
  rw [← same, List.head?_append, head, Option.some_or]

theorem trim_last (s : List Char) (c : Char) (last : (trimChars s).getLast? = some c) :
    isBlank c = false := by
  exact trim_end_last _ c last

theorem trim_fixed (s : List Char) (head : ∀ c, s.head? = some c → isBlank c = false)
    (last : ∀ c, s.getLast? = some c → isBlank c = false) : trimChars s = s := by
  have start : trimStart s = s := by
    cases s with
    | nil => rfl
    | cons c s => exact trim_start_plain c s (head c rfl)
  rw [trimChars, start]
  cases s using List.reverseRecOn with
  | nil => rfl
  | append_singleton s c => exact trim_end_plain s c (last c (by simp))

theorem trim_again (s : List Char) : trimChars (trimChars s) = trimChars s :=
  trim_fixed _ (trim_head s) (trim_last s)

end DarkDrop.Text
