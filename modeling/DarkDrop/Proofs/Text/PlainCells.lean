import Mathlib.Data.List.Basic
import DarkDrop.Terminal.Cell

namespace DarkDrop.Text

-- The printable characters of ASCII. Each is a glyph of one cell.
def IsPlain (c : Char) : Prop := 0x20 ≤ c.toNat ∧ c.toNat ≤ 0x7e

instance (c : Char) : Decidable (IsPlain c) := inferInstanceAs (Decidable (_ ∧ _))

def Plain (s : List Char) : Prop := ∀ c ∈ s, IsPlain c

instance (s : List Char) : Decidable (Plain s) := List.decidableBAll IsPlain s

theorem plain_append {s t : List Char} (first : Plain s) (second : Plain t) : Plain (s ++ t) :=
  List.forall_mem_append.mpr ⟨first, second⟩

theorem plain_lacks {s : List Char} (plain : Plain s) (c : Char) (other : ¬ IsPlain c) : c ∉ s :=
  fun held => other (plain c held)

section

variable {c : Char} (plain : IsPlain c)
include plain

theorem plain_outside (runs : List (Nat × Nat)) (beyond : ∀ r ∈ runs, r.2 < 0x20 ∨ 0x7e < r.1) :
    isIn runs c = false := by
  obtain ⟨low, high⟩ := plain
  rw [isIn, List.any_eq_false]
  intro r member
  have apart := beyond r member
  simp only [Bool.and_eq_true, decide_eq_true_eq, not_and]
  omega

theorem plain_below (n : Nat) (beyond : 0x7e < n) : decide (n ≤ c.toNat) = false ∧ (c.toNat == n) = false := by
  have high := plain.2
  exact ⟨decide_eq_false (by omega), beq_false_of_ne (by omega)⟩

theorem plain_unmarked : isMark c = false := plain_outside plain marks (by decide +kernel)

theorem plain_unclinging : clings c = false := by
  have vowel := plain_outside plain [(0x1160, 0x11ff)] (by decide)
  have joiner := (plain_below plain 0x200d (by decide)).2
  have tone := (plain_below plain 0x1f3fb (by decide)).1
  simp [clings, isJoiner, isSkinTone, plain_unmarked plain, vowel, joiner, tone]

theorem plain_flagless : isFlagLetter c = false := by
  rw [isFlagLetter, (plain_below plain 0x1f1e6 (by decide)).1, Bool.false_and]

theorem plain_drawn : isControl c = false := by
  have printed : decide (c.toNat < 0x20) = false := decide_eq_false (Nat.not_lt.mpr plain.1)
  rw [isControl, printed, (plain_below plain 0x7f (by decide)).1]
  rfl

theorem plain_narrow : charCells c = 1 := by
  have present := plain_outside plain cellless (by decide +kernel)
  have narrow := plain_outside plain wide (by decide +kernel)
  simp [charCells, plain_unmarked plain, present, narrow]

theorem plain_cell : glyphCells [c] = 1 := by
  simp [glyphCells, (plain_below plain 0xfe0f (by decide)).2, plain_narrow plain]

theorem plain_apart {last : Char} (other : IsPlain last) : joins c [last] = false := by
  have social := plain_outside plain loners (by decide +kernel)
  have before := plain_outside other loners (by decide +kernel)
  have unjoined := (plain_below other 0x200d (by decide)).2
  have lineless : last ≠ '\r' := fun same => absurd other (same ▸ by decide)
  simp [joins, isJoiner, lineless, social, before, plain_unclinging plain, plain_flagless plain, unjoined]

end

theorem plain_begun (c : Char) (s : List Char) (plain : Plain (c :: s)) :
    clustersFrom [c] s = (c :: s).map fun d => [d] := by
  induction s generalizing c with
  | nil => rfl
  | cons d s ih =>
      obtain ⟨first, others⟩ := List.forall_mem_cons.mp plain
      have apart := plain_apart (others d (List.mem_cons_self ..)) first
      simp [clustersFrom, apart, ih d others]

theorem plain_clusters (s : List Char) (plain : Plain s) : clusters s = s.map fun c => [c] := by
  cases s with
  | nil => rfl
  | cons c s =>
      rw [← plain_begun c s plain]
      simp [clusters, clustersFrom, joins]

def singles (s : List Char) : List Glyph := s.map fun c => ⟨[c], 1⟩

theorem plain_glyphs (s : List Char) (plain : Plain s) : glyphs s = singles s := by
  have shown : (s.map fun c => [c]).filter (fun g => ! g.any isControl) = s.map fun c => [c] := by
    rw [List.filter_eq_self]
    intro g member
    obtain ⟨c, held, rfl⟩ := List.mem_map.mp member
    simp [plain_drawn (plain c held)]
  rw [glyphs, plain_clusters s plain, shown, List.map_map]
  apply List.map_congr_left
  intro c held
  simp [plain_cell (plain c held)]

theorem plain_cells (s : List Char) (plain : Plain s) : cells s = s.length := by
  rw [cells, plain_clusters s plain]
  induction s with
  | nil => rfl
  | cons c s ih =>
      obtain ⟨first, others⟩ := List.forall_mem_cons.mp plain
      simp only [List.map_cons, List.foldr_cons, plain_cell first, ih others, List.length_cons]
      omega

end DarkDrop.Text

namespace DarkDrop.Row
open Text

def Reads (r : Row) (s : List Char) : Prop := r.map (·.symbol) = s.map fun c => [c]

theorem reads_length {r : Row} {s : List Char} (reads : r.Reads s) : r.length = s.length := by
  have lengths := congrArg List.length reads
  simpa using lengths

theorem fill_reads (width : Nat) (c : Char) (s : Style) : (fill width c s).Reads (List.replicate width c) := by
  rw [Reads, fill, List.map_replicate, List.map_replicate]

theorem overlay_reads {row top : Row} {s t : List Char} (under : row.Reads s) (above : top.Reads t) (column : Nat) :
    (row.overlay column top).Reads ((s.take column ++ t ++ s.drop (column + t.length)).take s.length) := by
  have lengths := reads_length under
  have tops := reads_length above
  rw [Reads] at under above
  rw [Reads, overlay, List.map_take, List.map_append, List.map_append, List.map_take, List.map_drop, under, above,
    lengths, tops]
  simp

theorem take_drop_taken {α : Type} (l : List α) (n : Nat) : l.take n ++ l.drop (l.take n).length = l := by
  by_cases short : l.length ≤ n
  · rw [List.take_of_length_le short, List.drop_length, List.append_nil]
  · rw [List.length_take_of_le (Nat.le_of_not_le short), List.take_append_drop]

theorem restyle_reads {row : Row} {s : List Char} (reads : row.Reads s) (style : Style) (column count : Nat) :
    (row.restyle style column count).Reads s := by
  have same : Reads (((row.drop column).take count).map fun c => { c with style := style })
      ((s.drop column).take count) := by
    rw [Reads] at reads ⊢
    rw [List.map_take (l := s.drop column), List.map_drop, ← reads]
    simp [Function.comp_def]
  have drawn := overlay_reads reads same column
  rwa [List.append_assoc, ← List.drop_drop, take_drop_taken, List.take_append_drop, List.take_length] at drawn

theorem fitting_singles (width : Nat) (s : List Char) : fitting width (singles s) = singles (s.take width) := by
  induction s generalizing width with
  | nil => simp [singles, fitting]
  | cons c s ih =>
      rw [singles, List.map_cons, fitting]
      cases width with
      | zero => rfl
      | succ n =>
          rw [if_pos (Nat.le_add_left 1 n)]
          exact congrArg _ (ih n)

theorem attach_singles (s : List Char) : attach (singles s) = singles s := by
  induction s with
  | nil => simp [singles, attach]
  | cons c s ih =>
      have none : (singles s).takeWhile (·.width = 0) = [] := by cases s <;> simp [singles]
      have all : (singles s).dropWhile (·.width = 0) = singles s := by cases s <;> simp [singles]
      have parts : singles (c :: s) = ⟨[c], 1⟩ :: singles s := rfl
      rw [parts, attach, none, all, ih]
      rfl

theorem singles_read (s : List Char) (style : Style) : Reads ((singles s).flatMap (ofGlyph style)) s := by
  induction s with
  | nil => rfl
  | cons c s ih => exact congrArg ([c] :: ·) ih

theorem text_reads (width : Nat) (style : Style) (s : List Char) (plain : Plain s) :
    (ofText width style (glyphs s)).Reads (s.take width) := by
  rw [plain_glyphs s plain, ofText]
  cases width with
  | zero =>
      have none : (singles s).filter (fun g => 0 < g.width && g.width ≤ 0) = [] := by
        rw [List.filter_eq_nil_iff]
        simp [singles]
      rw [none]
      rfl
  | succ n =>
      have all : (singles s).filter (fun g => 0 < g.width && g.width ≤ n + 1) = singles s := by
        rw [List.filter_eq_self]
        simp [singles]
      rw [all, fitting_singles]
      exact singles_read (s.take (n + 1)) style

theorem label_reads (width : Nat) (style : Style) (s : List Char) (plain : Plain s) :
    (ofLabel width style s).Reads (s.take width) := by
  rw [ofLabel, plain_cells s plain]
  by_cases nothing : width = 0 ∨ s = []
  · have empty : s.take width = [] := by simpa using nothing
    rw [if_pos (by simpa using nothing), empty]
    rfl
  · rw [if_neg (by simpa using nothing), plain_glyphs s plain, fitting_singles, attach_singles]
    exact singles_read (s.take width) style

end DarkDrop.Row
