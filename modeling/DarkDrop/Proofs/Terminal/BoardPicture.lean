import Mathlib.Data.Nat.Digits.Defs
import Mathlib.Data.Set.Function
import DarkDrop.Terminal.Board

namespace DarkDrop.Board

theorem aligned_length (width : Nat) (s : List Char) (fits : s.length ≤ width) :
    (rightAligned width s).length = width := by
  rw [rightAligned, List.length_append, List.length_replicate]
  omega

section Line
variable {width : Nat} {cells : List (List Char)}

theorem line_one (s : List Char) : line width [s] = rightAligned width s := by simp [line]

theorem line_more (s t : List Char) :
    line width (s :: t :: cells) = rightAligned width s ++ ' ' :: line width (t :: cells) := by
  simp [line, List.intercalate_cons_cons]

theorem line_length (fits : ∀ s ∈ cells, s.length ≤ width) :
    (line width cells).length = cells.length * width + (cells.length - 1) := by
  induction cells with
  | nil => simp [line]
  | cons s cells ih =>
      have first := aligned_length width s (fits s (by simp))
      cases cells with
      | nil => simp [line_one, first]
      | cons t cells =>
          have rest := ih fun u member => fits u (by simp [member])
          rw [line_more, List.length_append, List.length_cons, rest, first]
          simp only [List.length_cons, Nat.add_mul]
          omega

theorem line_tail (fits : ∀ s ∈ cells, s.length ≤ width) :
    (line width cells).drop (width + 1) = line width cells.tail := by
  match cells with
  | [] => simp [line]
  | [s] =>
      have first := aligned_length width s (fits s (by simp))
      rw [line_one, List.drop_eq_nil_of_le (by omega)]
      simp [line]
  | s :: t :: cells =>
      have first := aligned_length width s (fits s (by simp))
      have one : width + 1 - width = 1 := by omega
      rw [line_more, List.drop_append, first, List.drop_eq_nil_of_le (by omega), one]
      rfl

theorem line_drop (fits : ∀ s ∈ cells, s.length ≤ width) (c : Nat) :
    (line width cells).drop (c * (width + 1)) = line width (cells.drop c) := by
  induction c with
  | zero => simp
  | succ c ih =>
      have others : ∀ s ∈ cells.drop c, s.length ≤ width := fun s member => fits s (List.mem_of_mem_drop member)
      rw [Nat.succ_mul, ← List.drop_drop, ih, line_tail others, List.tail_drop]

theorem line_cell (fits : ∀ s ∈ cells, s.length ≤ width) (c : Nat) (inside : c < cells.length) :
    ((line width cells).drop (c * (width + 1))).take width = rightAligned width cells[c] := by
  have first := aligned_length width cells[c] (fits _ (by simp))
  rw [line_drop fits, List.drop_eq_getElem_cons inside]
  cases cells.drop (c + 1) with
  | nil => rw [line_one, List.take_of_length_le (by omega)]
  | cons t others => rw [line_more, List.take_left' first]

theorem line_gap (fits : ∀ s ∈ cells, s.length ≤ width) (c : Nat) (inside : c + 1 < cells.length) :
    (line width cells)[c * (width + 1) + width]? = some ' ' := by
  have first := aligned_length width cells[c] (fits _ (by simp))
  rw [← List.getElem?_drop, line_drop fits, List.drop_eq_getElem_cons (by omega), List.drop_eq_getElem_cons inside,
    line_more, List.getElem?_append_right (by omega)]
  simp [first]

theorem line_place (fits : ∀ s ∈ cells, s.length ≤ width) (c : Nat) (inside : c < cells.length)
    (j : Nat) (within : j < width) :
    (line width cells)[c * (width + 1) + j]? = (rightAligned width cells[c])[j]? := by
  rw [← line_cell fits c inside, List.getElem?_take_of_lt within, List.getElem?_drop]

-- A place in a line belongs to a cell, or to the space behind one.
theorem place_split (n p : Nat) (inside : p < n * width + (n - 1)) :
    ∃ c j, p = c * (width + 1) + j ∧ (c < n ∧ j < width ∨ c + 1 < n ∧ j = width) := by
  have parts := Nat.div_add_mod' p (width + 1)
  have small : p % (width + 1) < width + 1 := Nat.mod_lt _ (by omega)
  generalize p / (width + 1) = c at parts
  generalize p % (width + 1) = j at parts small
  have places : ∀ m ≤ c, m * width + m ≤ c * (width + 1) := fun m few =>
    Nat.mul_succ m width ▸ Nat.mul_le_mul_right (width + 1) few
  refine ⟨c, j, parts.symm, ?_⟩
  cases n with
  | zero => simp at inside
  | succ n =>
      by_cases within : j < width
      · refine .inl ⟨?_, within⟩
        by_contra beyond
        have more := places (n + 1) (by omega)
        omega
      · refine .inr ⟨?_, by omega⟩
        by_contra last
        have more := places n (by omega)
        rw [Nat.succ_mul] at inside
        omega

theorem mem_line {x : Char} (member : x ∈ line width cells) : x = ' ' ∨ ∃ s ∈ cells, x ∈ s := by
  induction cells with
  | nil => simp [line] at member
  | cons s cells ih =>
      have padded : x ∈ rightAligned width s → x = ' ' ∨ x ∈ s := by
        intro aligned
        rw [rightAligned, List.mem_append] at aligned
        exact aligned.imp_left List.eq_of_mem_replicate
      cases cells with
      | nil =>
          rw [line_one] at member
          exact (padded member).imp_right fun own => ⟨s, by simp, own⟩
      | cons t cells =>
          rw [line_more, List.mem_append, List.mem_cons] at member
          rcases member with first | space | rest
          · exact (padded first).imp_right fun own => ⟨s, by simp, own⟩
          · exact .inl space
          · exact (ih rest).imp_right fun ⟨u, other, own⟩ => ⟨u, by simp [other], own⟩

end Line

section Size
variable (board : List (List UInt64))

theorem column_width_pos : 0 < columnWidth board := Nat.length_toDigits_pos

theorem column_width_le_iff (w : Nat) (some : 0 < w) : columnWidth board ≤ w ↔ board.length - 1 < 10 ^ w :=
  Nat.length_toDigits_le_iff (by decide) some

theorem number_fits (c : Nat) (inside : c < board.length) : (Text.digits c).length ≤ columnWidth board := by
  have last : board.length - 1 < 10 ^ columnWidth board :=
    (column_width_le_iff board _ (column_width_pos board)).mp (Nat.le_refl _)
  exact (Nat.length_toDigits_le_iff (by decide) (column_width_pos board)).mpr (by omega)

theorem height_bound (column : List UInt64) (member : column ∈ board) : column.length ≤ height board := by
  rw [height, List.foldl_max]
  exact Nat.le_trans (List.le_max?_getD_of_mem (List.mem_map_of_mem member)) (Nat.le_max_right ..)

theorem height_reached (columns : board ≠ []) : ∃ column ∈ board, column.length = height board := by
  cases largest : (board.map List.length).max? with
  | none => simp_all
  | some most =>
      have top : height board = most := by
        rw [height, List.foldl_max, largest]
        exact Nat.zero_max most
      obtain ⟨column, member, same⟩ := List.mem_map.mp (List.max?_mem largest)
      exact ⟨column, member, same.trans top.symm⟩

end Size

def Occupied (board : List (List UInt64)) (c slot : Nat) : Prop :=
  ∃ column value, board[c]? = some column ∧ column[slot]? = some value ∧ value ≠ 0

def header (board : List (List UInt64)) : List Char :=
  line (columnWidth board) ((List.range board.length).map Text.digits)

def row (board : List (List UInt64)) (slot : Nat) : List Char :=
  line (columnWidth board) (board.map fun column => [mark slot column])

def charAt (lines : List (List Char)) (place : Nat × Nat) : Option Char :=
  lines[place.1]?.bind fun l => l[place.2]?

def spot (board : List (List UInt64)) (slot : Nat × Nat) : Nat × Nat :=
  (height board - slot.2, slot.1 * (columnWidth board + 1) + columnWidth board - 1)

section Slots
variable {board : List (List UInt64)} {c slot : Nat}

theorem occupied_column (occupied : Occupied board c slot) : c < board.length := by
  obtain ⟨column, value, here, -, -⟩ := occupied
  exact (List.getElem?_eq_some_iff.mp here).1

theorem occupied_slot (occupied : Occupied board c slot) : slot < height board := by
  obtain ⟨column, value, here, there, -⟩ := occupied
  have bound := height_bound board column (List.mem_of_getElem? here)
  have within := (List.getElem?_eq_some_iff.mp there).1
  omega

theorem mark_occupied (occupied : Occupied board c slot) (inside : c < board.length) : mark slot board[c] = '#' := by
  obtain ⟨column, value, here, there, filled⟩ := occupied
  have same : board[c] = column := (List.getElem?_eq_some_iff.mp here).2
  simp [mark, same, there, filled]

theorem mark_bare (bare : ¬ Occupied board c slot) (inside : c < board.length) : mark slot board[c] = '.' := by
  rw [mark, if_pos]
  cases there : board[c][slot]? with
  | none => rfl
  | some value =>
      by_contra filled
      exact bare ⟨board[c], value, List.getElem?_eq_getElem inside, there, filled⟩

end Slots

section Rows
variable {board : List (List UInt64)} {slot : Nat}

theorem marks_fit : ∀ s ∈ board.map (fun column => [mark slot column]), s.length ≤ columnWidth board := by
  intro s member
  obtain ⟨column, -, rfl⟩ := List.mem_map.mp member
  exact column_width_pos board

theorem numbers_fit : ∀ s ∈ (List.range board.length).map Text.digits, s.length ≤ columnWidth board := by
  intro s member
  obtain ⟨c, inside, rfl⟩ := List.mem_map.mp member
  exact number_fits board c (List.mem_range.mp inside)

theorem row_length : (row board slot).length = board.length * columnWidth board + (board.length - 1) := by
  rw [row, line_length marks_fit, List.length_map]

theorem row_mark (c : Nat) (inside : c < board.length) :
    (row board slot)[c * (columnWidth board + 1) + columnWidth board - 1]? = some (mark slot board[c]) := by
  have positive := column_width_pos board
  have place : c * (columnWidth board + 1) + columnWidth board - 1 =
    c * (columnWidth board + 1) + (columnWidth board - 1) := by omega
  rw [place, row, line_place marks_fit c (by simpa using inside) _ (by omega)]
  simp [rightAligned]

theorem row_space (p : Nat) (inside : p < (row board slot).length)
    (apart : ∀ c < board.length, p ≠ c * (columnWidth board + 1) + columnWidth board - 1) :
    (row board slot)[p]? = some ' ' := by
  rw [row_length] at inside
  obtain ⟨c, j, rfl, ⟨before, within⟩ | ⟨before, rfl⟩⟩ := place_split board.length p inside
  · have other := apart c before
    have padding : j < columnWidth board - 1 := by omega
    rw [row, line_place marks_fit c (by simpa using before) j within]
    simp [rightAligned, List.getElem?_append_left, padding]
  · exact line_gap marks_fit c (by simpa using before)

theorem header_length : (header board).length = board.length * columnWidth board + (board.length - 1) := by
  rw [header, line_length numbers_fit, List.length_map, List.length_range]

theorem header_plain : '#' ∉ header board := by
  intro member
  rcases mem_line member with space | ⟨s, number, own⟩
  · exact absurd space (by decide)
  · obtain ⟨c, -, rfl⟩ := List.mem_map.mp number
    have digit : Char.isDigit '#' = true := Nat.isDigit_of_mem_toDigits (by decide) (by decide) own
    exact absurd digit (by decide)

end Rows

section Lines
variable {board : List (List UInt64)}

theorem draw_empty : draw board = [] ↔ board = [] := by
  cases board <;> simp [draw]

theorem draw_columns (columns : board ≠ []) :
    draw board = header board :: (List.range (height board)).reverse.map (row board) := by
  rw [draw, if_neg (by simpa using columns)]
  rfl

theorem draw_row (r : Nat) (inside : r < height board) :
    (draw board)[1 + r]? = some (row board (height board - 1 - r)) := by
  have columns : board ≠ [] := by
    rintro rfl
    simp [height] at inside
  rw [draw_columns columns, Nat.add_comm, List.getElem?_cons_succ]
  simp [inside]

theorem line_cases (l : List Char) (member : l ∈ draw board) :
    board ≠ [] ∧ (l = header board ∨ ∃ slot < height board, l = row board slot) := by
  have columns : board ≠ [] := fun empty => List.ne_nil_of_mem member (draw_empty.mpr empty)
  rw [draw_columns columns, List.mem_cons] at member
  refine ⟨columns, member.imp_right fun below => ?_⟩
  obtain ⟨slot, inside, same⟩ := List.mem_map.mp below
  exact ⟨slot, by simpa using inside, same.symm⟩

theorem draw_length (columns : board ≠ []) : (draw board).length = 1 + height board := by
  simp [draw_columns columns, Nat.add_comm]

theorem line_wide {l : List Char} (member : l ∈ draw board) :
    l.length = board.length * columnWidth board + (board.length - 1) := by
  obtain ⟨-, rfl | ⟨slot, -, rfl⟩⟩ := line_cases l member
  · exact header_length
  · exact row_length

theorem gap_space {l : List Char} (member : l ∈ draw board) (c : Nat) (inside : c + 1 < board.length) :
    l[c * (columnWidth board + 1) + columnWidth board]? = some ' ' := by
  obtain ⟨-, rfl | ⟨slot, -, rfl⟩⟩ := line_cases l member
  · exact line_gap numbers_fit c (by simpa using inside)
  · exact line_gap marks_fit c (by simpa using inside)

theorem header_number (top : List Char) (first : (draw board)[0]? = some top) (c : Nat) (before : c < board.length) :
    (top.drop (c * (columnWidth board + 1))).take (columnWidth board) =
      List.replicate (columnWidth board - (Text.digits c).length) ' ' ++ Text.digits c := by
  have columns := (line_cases top (List.mem_of_getElem? first)).1
  rw [draw_columns columns] at first
  cases first
  rw [header, line_cell numbers_fit c (by simpa using before)]
  simp [rightAligned]

theorem row_char (r p : Nat) (inside : r < height board) :
    charAt (draw board) (1 + r, p) = (row board (height board - 1 - r))[p]? := by
  rw [charAt, draw_row r inside]
  rfl

theorem spot_char {c slot : Nat} (before : c < board.length) (inside : slot < height board) :
    charAt (draw board) (spot board (c, slot)) = some (mark slot board[c]) := by
  have place : height board - slot = 1 + (height board - 1 - slot) := by omega
  have flipped : height board - 1 - (height board - 1 - slot) = slot := by omega
  rw [spot, place, row_char _ _ (by omega), flipped, row_mark c before]

-- A hash is the mark of an occupied slot, since the header has none.
theorem hash_spot (place : Nat × Nat) (hash : charAt (draw board) place = some '#') :
    ∃ c slot, Occupied board c slot ∧ spot board (c, slot) = place := by
  obtain ⟨i, p⟩ := place
  obtain ⟨l, line, char⟩ := Option.bind_eq_some_iff.mp hash
  have columns := (line_cases l (List.mem_of_getElem? line)).1
  cases i with
  | zero =>
      rw [draw_columns columns] at line
      cases line
      exact absurd (List.mem_of_getElem? char) header_plain
  | succ r =>
      have few := (List.getElem?_eq_some_iff.mp line).1
      have inside : r < height board := by simpa [draw_columns columns] using few
      rw [Nat.add_comm, row_char r p inside] at hash
      by_cases apart : ∀ c < board.length, p ≠ c * (columnWidth board + 1) + columnWidth board - 1
      · rw [row_space p (List.getElem?_eq_some_iff.mp hash).1 apart] at hash
        exact absurd hash (by decide)
      · obtain ⟨c, before, same⟩ : ∃ c, c < board.length ∧ p = c * (columnWidth board + 1) + columnWidth board - 1 := by
          simpa using apart
        refine ⟨c, height board - 1 - r, ?_, ?_⟩
        · by_contra bare
          rw [same, row_mark c before, mark_bare bare before] at hash
          exact absurd hash (by decide)
        · rw [spot, same, Prod.mk.injEq]
          exact ⟨by omega, rfl⟩

theorem spot_occupied {c slot : Nat} (occupied : Occupied board c slot) :
    charAt (draw board) (spot board (c, slot)) = some '#' := by
  have before := occupied_column occupied
  rw [spot_char before (occupied_slot occupied), mark_occupied occupied before]

theorem spot_inj {a b : Nat × Nat} (first : a.2 < height board) (second : b.2 < height board)
    (same : spot board a = spot board b) : a = b := by
  have positive := column_width_pos board
  obtain ⟨line, place⟩ := Prod.mk.inj same
  have multiples : a.1 * (columnWidth board + 1) = b.1 * (columnWidth board + 1) := by omega
  exact Prod.ext (Nat.eq_of_mul_eq_mul_right (Nat.succ_pos _) multiples) (by omega)

theorem occupied_iff_hash {c slot : Nat} (inside : slot < height board) :
    Occupied board c slot ↔ charAt (draw board) (spot board (c, slot)) = some '#' := by
  refine ⟨spot_occupied, fun hash => ?_⟩
  obtain ⟨column, height, occupied, same⟩ := hash_spot _ hash
  cases spot_inj (occupied_slot occupied) inside same
  exact occupied

theorem shown_once : Set.BijOn (spot board) {slot | Occupied board slot.1 slot.2}
    {place | charAt (draw board) place = some '#'} := by
  refine ⟨fun slot occupied => spot_occupied occupied, ?_, ?_⟩
  · intro a first b second same
    exact spot_inj (occupied_slot first) (occupied_slot second) same
  · intro place hash
    obtain ⟨c, slot, occupied, same⟩ := hash_spot place hash
    exact ⟨(c, slot), occupied, same⟩

end Lines

section Alike
variable {board other : List (List UInt64)}

theorem column_width_alike (count : board.length = other.length) : columnWidth board = columnWidth other := by
  rw [columnWidth, columnWidth, count]

theorem header_alike (count : board.length = other.length) : header board = header other := by
  rw [header, header, column_width_alike count, count]

theorem row_alike (count : board.length = other.length) (slot : Nat)
    (alike : ∀ c, Occupied board c slot ↔ Occupied other c slot) : row board slot = row other slot := by
  have marks : board.map (fun column => [mark slot column]) = other.map fun column => [mark slot column] := by
    apply List.ext_getElem (by simpa using count)
    intro c before beyond
    rw [List.length_map] at before beyond
    rw [List.getElem_map, List.getElem_map]
    by_cases occupied : Occupied board c slot
    · rw [mark_occupied occupied before, mark_occupied ((alike c).mp occupied) beyond]
    · rw [mark_bare occupied before, mark_bare (fun there => occupied ((alike c).mpr there)) beyond]
  rw [row, row, column_width_alike count, marks]

theorem draw_eq_iff (count : board.length = other.length) (size : height board = height other) :
    draw board = draw other ↔ ∀ c slot, Occupied board c slot ↔ Occupied other c slot := by
  constructor
  · intro same c slot
    have spots : spot board (c, slot) = spot other (c, slot) := by
      rw [spot, spot, size, column_width_alike count]
    by_cases inside : slot < height board
    · rw [occupied_iff_hash inside, occupied_iff_hash (size ▸ inside), same, spots]
    · constructor
      · intro occupied
        exact absurd (occupied_slot occupied) inside
      · intro occupied
        exact absurd (size ▸ occupied_slot occupied) inside
  · intro alike
    by_cases columns : board = []
    · have none : other = [] := by simpa [columns] using count.symm
      rw [columns, none]
    · have some : other ≠ [] := by
        intro none
        simp [none] at count
        exact columns count
      have rows : row board = row other := funext fun slot => row_alike count slot fun c => alike c slot
      rw [draw_columns columns, draw_columns some, header_alike count, rows, size]

end Alike

structure Pictured (board : List (List UInt64)) : Prop where
  empty : draw board = [] ↔ board = []
  bounded : ∀ column ∈ board, column.length ≤ height board
  reached : board ≠ [] → ∃ column ∈ board, column.length = height board
  digits : columnWidth board = (Nat.toDigits 10 (board.length - 1)).length
  least : ∀ w, 0 < w → (columnWidth board ≤ w ↔ board.length - 1 < 10 ^ w)
  lines : board ≠ [] → (draw board).length = 1 + height board
  wide : ∀ l ∈ draw board, l.length = board.length * columnWidth board + (board.length - 1)
  numbers : ∀ top, (draw board)[0]? = some top → ∀ c < board.length,
    (top.drop (c * (columnWidth board + 1))).take (columnWidth board) =
      List.replicate (columnWidth board - (Text.digits c).length) ' ' ++ Text.digits c
  gaps : ∀ l ∈ draw board, ∀ c, c + 1 < board.length →
    l[c * (columnWidth board + 1) + columnWidth board]? = some ' '
  filled : ∀ r < height board, ∀ c < board.length, Occupied board c (height board - 1 - r) →
    charAt (draw board) (1 + r, c * (columnWidth board + 1) + columnWidth board - 1) = some '#'
  bare : ∀ r < height board, ∀ c < board.length, ¬ Occupied board c (height board - 1 - r) →
    charAt (draw board) (1 + r, c * (columnWidth board + 1) + columnWidth board - 1) = some '.'
  spaces : ∀ r < height board, ∀ p < board.length * columnWidth board + (board.length - 1),
    (∀ c < board.length, p ≠ c * (columnWidth board + 1) + columnWidth board - 1) →
      charAt (draw board) (1 + r, p) = some ' '
  once : Set.BijOn (spot board) {slot | Occupied board slot.1 slot.2} {place | charAt (draw board) place = some '#'}
  alike : ∀ other, board.length = other.length → height board = height other →
    (draw board = draw other ↔ ∀ c slot, Occupied board c slot ↔ Occupied other c slot)

theorem board_pictured (board : List (List UInt64)) : Pictured board where
  empty := draw_empty
  bounded := height_bound board
  reached := height_reached board
  digits := rfl
  least := column_width_le_iff board
  lines := draw_length
  wide _ := line_wide
  numbers := header_number
  gaps _ := gap_space
  filled r inside c before occupied := by
    rw [row_char r _ inside, row_mark c before, mark_occupied occupied before]
  bare r inside c before unoccupied := by
    rw [row_char r _ inside, row_mark c before, mark_bare unoccupied before]
  spaces r inside p within apart := by
    rw [row_char r p inside]
    exact row_space p (by rw [row_length]; exact within) apart
  once := shown_once
  alike _ := draw_eq_iff

example : draw [[1], [0, 1]] = ["0 1", ". #", "# ."].map String.toList := by decide +kernel

end DarkDrop.Board
