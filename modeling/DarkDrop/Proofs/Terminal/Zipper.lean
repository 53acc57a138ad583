import Mathlib.Data.List.Induction
import DarkDrop.Terminal.LineEditor

namespace DarkDrop.Text

theorem offset_size (l r : List Char) : byteOffset (l ++ r) l.length = size l := by
  induction l with
  | nil => cases r <;> rfl
  | cons c l ih => rw [List.cons_append, List.length_cons, byteOffset, ih, size]

theorem cut_size (l r : List Char) : cutAtByte (l ++ r) (size l) = some (l, r) := by
  induction l with
  | nil => cases r <;> rfl
  | cons c l ih =>
      have positive := c.utf8Size_pos
      obtain ⟨n, total⟩ : ∃ n, c.utf8Size + size l = n + 1 := ⟨c.utf8Size + size l - 1, by omega⟩
      have rest : n + 1 - c.utf8Size = size l := by omega
      rw [size, total, List.cons_append, cutAtByte, if_pos (by omega), rest, ih]
      rfl

theorem insert_between (l r : List Char) (c : Char) :
    insertAt (l ++ r) (byteOffset (l ++ r) l.length) c = some (l ++ c :: r) := by
  rw [offset_size, insertAt, cut_size]
  rfl

theorem remove_between (l r : List Char) (c : Char) :
    removeAt (l ++ c :: r) (byteOffset (l ++ c :: r) l.length) = some (l ++ r) := by
  rw [offset_size, removeAt, cut_size]

theorem size_utf8 (s : List Char) : (String.ofList s).utf8ByteSize = size s := by
  induction s with
  | nil => rfl
  | cons c s ih =>
      have apart : String.ofList (c :: s) = String.singleton c ++ String.ofList s := String.toList_inj.mp (by simp)
      rw [apart, String.utf8ByteSize_append, String.utf8ByteSize_singleton, ih, size]

theorem boundary_between (l r : List Char) :
    (String.Pos.Raw.mk (byteOffset (l ++ r) l.length)).IsValid (String.ofList (l ++ r)) := by
  rw [String.Pos.Raw.isValid_iff_exists_append]
  refine ⟨String.ofList l, String.ofList r, String.ofList_append, ?_⟩
  rw [offset_size, ← size_utf8]
  rfl

def Begins (s : List Char) (offset : Nat) : Prop :=
  (String.Pos.Raw.mk offset).IsValid (String.ofList s) ∧ offset < (String.ofList s).utf8ByteSize

theorem begins_between (l r : List Char) (c : Char) :
    Begins (l ++ c :: r) (byteOffset (l ++ c :: r) l.length) := by
  have positive := c.utf8Size_pos
  refine ⟨boundary_between l (c :: r), ?_⟩
  rw [offset_size, size_utf8, size_append, size]
  omega

theorem begins_before_end (s : List Char) (n : Nat) (inside : n < s.length) : Begins s (byteOffset s n) := by
  have parts : s = s.take n ++ s[n] :: s.drop (n + 1) := by simp
  have front : (s.take n).length = n := List.length_take_of_le (Nat.le_of_lt inside)
  have begins := begins_between (s.take n) (s.drop (n + 1)) s[n]
  rwa [← parts, front] at begins

end DarkDrop.Text

namespace DarkDrop

structure Zipper where
  left : List Char := []
  right : List Char := []

namespace Zipper

def editor (z : Zipper) : LineEditor := ⟨z.left ++ z.right, z.left.length⟩

def back (z : Zipper) : Zipper :=
  match z.left.getLast? with
  | some c => ⟨z.left.dropLast, c :: z.right⟩
  | none => z

def forth (z : Zipper) : Zipper :=
  match z.right with
  | c :: r => ⟨z.left ++ [c], r⟩
  | [] => z

def press (z : Zipper) : Key → Zipper × KeyOutcome
  | .char c => (⟨z.left ++ [c], z.right⟩, .edited)
  | .backspace => (⟨z.left.dropLast, z.right⟩, .edited)
  | .delete => (⟨z.left, z.right.tail⟩, .edited)
  | .left => (z.back, .edited)
  | .right => (z.forth, .edited)
  | .home => (⟨[], z.left ++ z.right⟩, .edited)
  | .end => (⟨z.left ++ z.right, []⟩, .edited)
  | .enter => (⟨[], []⟩, .submitted (z.left ++ z.right))
  | .esc => (z, .quit)

def pressAll (z : Zipper) : List Key → Zipper × List KeyOutcome
  | [] => (z, [])
  | k :: ks => (((z.press k).1.pressAll ks).1, (z.press k).2 :: ((z.press k).1.pressAll ks).2)

def after (ks : List Key) : Zipper := (pressAll {} ks).1

theorem press_all_text (z : Zipper) (text : List Char) (ks : List Key) :
    z.pressAll (text.map .char ++ ks) =
      ((pressAll ⟨z.left ++ text, z.right⟩ ks).1,
        List.replicate text.length .edited ++ (pressAll ⟨z.left ++ text, z.right⟩ ks).2) := by
  induction text generalizing z with
  | nil => simp
  | cons c text ih =>
      rw [List.map_cons, List.cons_append, pressAll, ih]
      simp [press, List.replicate_succ]

end Zipper

namespace LineEditor

def run? (e : LineEditor) : List Key → Option (LineEditor × List KeyOutcome)
  | [] => some (e, [])
  | k :: ks => do
      let (next, outcome) ← e.press? k
      let (last, outcomes) ← next.run? ks
      some (last, outcome :: outcomes)

theorem backspace_removes {e : LineEditor} {shorter : List Char} (inside : 0 < e.cursor)
    (removed : Text.removeAt e.buffer (Text.byteOffset e.buffer (e.cursor - 1)) = some shorter) :
    e.press? .backspace = some (⟨shorter, e.cursor - 1⟩, .edited) := by
  rw [press?, if_pos inside, removed]
  rfl

theorem delete_removes {e : LineEditor} {shorter : List Char} (inside : e.cursor < e.buffer.length)
    (removed : Text.removeAt e.buffer (Text.byteOffset e.buffer e.cursor) = some shorter) :
    e.press? .delete = some (⟨shorter, e.cursor⟩, .edited) := by
  rw [press?, if_pos inside, removed]
  rfl

theorem press_backspace (z : Zipper) :
    z.editor.press? .backspace = some ((z.press .backspace).1.editor, .edited) := by
  obtain ⟨left, right⟩ := z
  cases left using List.reverseRecOn with
  | nil => rfl
  | append_singleton l c =>
      have cursor : (Zipper.editor ⟨l ++ [c], right⟩).cursor = l.length + 1 := List.length_append
      have buffer : (Zipper.editor ⟨l ++ [c], right⟩).buffer = l ++ c :: right := List.append_assoc ..
      have removed := Text.remove_between l right c
      rw [backspace_removes (by omega) (by rw [buffer, cursor]; exact removed), cursor]
      simp [Zipper.press, Zipper.editor]

theorem press_delete (z : Zipper) :
    z.editor.press? .delete = some ((z.press .delete).1.editor, .edited) := by
  obtain ⟨left, right⟩ := z
  cases right with
  | nil =>
      have outside : ¬ (Zipper.editor ⟨left, []⟩).cursor < (Zipper.editor ⟨left, []⟩).buffer.length := by
        simp [Zipper.editor]
      rw [press?, if_neg outside]
      rfl
  | cons c r =>
      have inside : (Zipper.editor ⟨left, c :: r⟩).cursor < (Zipper.editor ⟨left, c :: r⟩).buffer.length := by
        simp [Zipper.editor]
      exact delete_removes inside (Text.remove_between left r c)

theorem press_left (z : Zipper) : z.editor.press? .left = some ((z.press .left).1.editor, .edited) := by
  obtain ⟨left, right⟩ := z
  cases left using List.reverseRecOn with
  | nil => rfl
  | append_singleton l c => simp [Zipper.editor, press?, Zipper.press, Zipper.back]

theorem press_right (z : Zipper) : z.editor.press? .right = some ((z.press .right).1.editor, .edited) := by
  obtain ⟨left, right⟩ := z
  cases right with
  | nil => simp [Zipper.editor, press?, Zipper.press, Zipper.forth]
  | cons c r => simp [Zipper.editor, press?, Zipper.press, Zipper.forth]

theorem press_zipper (z : Zipper) (k : Key) : z.editor.press? k = some ((z.press k).1.editor, (z.press k).2) := by
  cases k with
  | char c =>
      simp only [Zipper.editor, press?]
      rw [Text.insert_between]
      simp [Zipper.press]
  | backspace => exact press_backspace z
  | delete => exact press_delete z
  | left => exact press_left z
  | right => exact press_right z
  | «end» => simp [press?, Zipper.press, Zipper.editor]
  | home | enter | esc => rfl

theorem run_zipper (z : Zipper) (ks : List Key) :
    z.editor.run? ks = some ((z.pressAll ks).1.editor, (z.pressAll ks).2) := by
  induction ks generalizing z with
  | nil => rfl
  | cons k ks ih =>
      rw [run?, press_zipper z k]
      change ((z.press k).1.editor.run? ks).bind _ = _
      rw [ih]
      rfl

theorem press_all_zipper (z : Zipper) (ks : List Key) : z.editor.pressAll ks = (z.pressAll ks).1.editor := by
  induction ks generalizing z with
  | nil => rfl
  | cons k ks ih =>
      have step : (z.editor.press k).1 = (z.press k).1.editor := by rw [press, press_zipper z k]; rfl
      change LineEditor.pressAll (z.editor.press k).1 ks = _
      rw [step, ih]
      rfl

def after (ks : List Key) : LineEditor := pressAll {} ks

theorem after_editor (ks : List Key) : after ks = (Zipper.after ks).editor := press_all_zipper {} ks

theorem after_buffer (ks : List Key) : (after ks).buffer = (Zipper.after ks).left ++ (Zipper.after ks).right := by
  rw [after_editor]
  rfl

theorem after_cursor (ks : List Key) : (after ks).cursor = (Zipper.after ks).left.length := by
  rw [after_editor]
  rfl

theorem after_within (ks : List Key) : (after ks).cursor ≤ (after ks).buffer.length := by
  rw [after_buffer, after_cursor, List.length_append]
  exact Nat.le_add_right ..

theorem after_empty (ks : List Key) (empty : (after ks).buffer = []) : Zipper.after ks = {} := by
  obtain ⟨left, right⟩ := List.append_eq_nil_iff.mp ((after_buffer ks).symm.trans empty)
  rw [Zipper.mk.injEq]
  exact ⟨left, right⟩

-- Where a key changes the text, it does so at a boundary between characters, so all keys have a result.
structure Refines (ks : List Key) : Prop where
  runs : run? {} ks = some (after ks, (Zipper.pressAll {} ks).2)
  buffer : (after ks).buffer = (Zipper.after ks).left ++ (Zipper.after ks).right
  cursor : (after ks).cursor = (Zipper.after ks).left.length
  within : (after ks).cursor ≤ (after ks).buffer.length
  inserts : (String.Pos.Raw.mk (Text.byteOffset (after ks).buffer (after ks).cursor)).IsValid
    (String.ofList (after ks).buffer)
  erases : 0 < (after ks).cursor →
    Text.Begins (after ks).buffer (Text.byteOffset (after ks).buffer ((after ks).cursor - 1))
  deletes : (after ks).cursor < (after ks).buffer.length →
    Text.Begins (after ks).buffer (Text.byteOffset (after ks).buffer (after ks).cursor)
  submits : (after ks).buffer = [] → ∀ text, (after ks).run? (text.map .char ++ [.enter]) =
    some ({}, List.replicate text.length .edited ++ [.submitted text])

theorem zipper_refinement (ks : List Key) : Refines ks where
  runs := by
    rw [after_editor]
    exact run_zipper {} ks
  buffer := after_buffer ks
  cursor := after_cursor ks
  within := after_within ks
  inserts := by
    rw [after_buffer, after_cursor]
    exact Text.boundary_between _ _
  erases positive := by
    have within := after_within ks
    exact Text.begins_before_end _ _ (by omega)
  deletes inside := Text.begins_before_end _ _ inside
  submits empty text := by
    rw [after_editor, after_empty ks empty, run_zipper, Zipper.press_all_text]
    simp [Zipper.pressAll, Zipper.press, Zipper.editor]

end LineEditor
end DarkDrop
