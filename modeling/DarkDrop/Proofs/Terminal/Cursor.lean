import DarkDrop.Terminal.Picture

namespace DarkDrop

theorem mod_onward (before after limit : Nat) (later : before ≤ after) (turn : before / limit = after / limit) :
    before % limit ≤ after % limit := by
  have first := Nat.div_add_mod before limit
  have second := Nat.div_add_mod after limit
  rw [turn] at first
  omega

theorem mod_last (cursor limit : Nat) (turns : limit + 1 ∣ cursor + 1) : cursor % (limit + 1) = limit := by
  obtain ⟨k, same⟩ := turns
  cases k with
  | zero => cases same
  | succ k =>
      obtain rfl : cursor = (limit + 1) * k + limit := by
        rw [Nat.mul_succ] at same
        omega
      rw [Nat.mul_add_mod, Nat.mod_eq_of_lt (Nat.lt_succ_self limit)]

namespace Area

structure Roomy (a : Area) : Prop where
  wide : 5 ≤ a.width
  high : 3 ≤ a.height
  across : a.x + a.width ≤ coordinateLimit + 1
  down : a.y + a.height ≤ coordinateLimit + 1

def rightBorder (a : Area) : Nat := a.x + a.width - 1

-- Where a cursor belongs: behind what is typed in front of it, and in the last
-- column inside of the border once that is reached.
def due (a : Area) (cursor : Nat) : Nat :=
  if a.x + promptWidth + cursor < a.rightBorder then a.x + promptWidth + cursor else a.rightBorder - 1

-- The column that no cursor gets past. It is inside of the border only where the
-- border has the last coordinate of all.
def stop (a : Area) : Nat := if a.x + a.width ≤ coordinateLimit then a.rightBorder else a.rightBorder - 1

section

variable (a : Area) (roomy : a.Roomy)
include roomy

theorem cursor_row (cursor : Nat) : (cursorIn a cursor).2 = a.y + 1 := by
  have high := roomy.high
  have down := roomy.down
  exact Nat.min_eq_left (by omega)

theorem stop_inside : a.x + promptWidth ≤ a.stop ∧ a.stop ≤ a.rightBorder := by
  have wide := roomy.wide
  rw [stop, rightBorder, promptWidth]
  split <;> omega

theorem cursor_column (cursor : Nat) :
    (cursorIn a cursor).1 = min (a.x + promptWidth + cursor % (coordinateLimit + 1)) a.stop := by
  have wide := roomy.wide
  have across := roomy.across
  simp only [cursorIn, addCells, stop, rightBorder, promptWidth, rightPadding]
  generalize cursor % (coordinateLimit + 1) = typed
  generalize coordinateLimit = limit at across ⊢
  split <;> omega

theorem typed_column (cursor : Nat) (typed : a.x + promptWidth + cursor < a.rightBorder) :
    (cursorIn a cursor).1 = a.x + promptWidth + cursor := by
  have across := roomy.across
  have counted : cursor < coordinateLimit + 1 := by
    rw [rightBorder] at typed
    omega
  rw [cursor_column a roomy, Nat.mod_eq_of_lt counted, stop]
  apply Nat.min_eq_left
  split <;> omega

theorem full_column (cursor : Nat) (short : cursor ≤ coordinateLimit)
    (full : a.rightBorder ≤ a.x + promptWidth + cursor) : (cursorIn a cursor).1 = a.stop := by
  have inside := (stop_inside a roomy).2
  rw [cursor_column a roomy, Nat.mod_eq_of_lt (Nat.lt_succ_of_le short)]
  exact Nat.min_eq_right (Nat.le_trans inside full)

theorem due_column (cursor : Nat) (short : cursor ≤ coordinateLimit) :
    (cursorIn a cursor).1 = a.due cursor ↔
      a.x + promptWidth + cursor < a.rightBorder ∨ a.stop < a.rightBorder := by
  have inside := stop_inside a roomy
  by_cases typed : a.x + promptWidth + cursor < a.rightBorder
  · rw [typed_column a roomy cursor typed, due, if_pos typed]
    exact ⟨fun _ => .inl typed, fun _ => rfl⟩
  · rw [full_column a roomy cursor short (Nat.le_of_not_lt typed), due, if_neg typed]
    have last : a.stop = a.rightBorder ∨ a.stop = a.rightBorder - 1 := by
      rw [stop]
      split <;> simp
    have prompt : 0 < promptWidth := by decide
    omega

theorem cursor_bounded (cursor : Nat) :
    a.x + promptWidth ≤ (cursorIn a cursor).1 ∧ (cursorIn a cursor).1 ≤ a.rightBorder := by
  have inside := stop_inside a roomy
  rw [cursor_column a roomy]
  omega

theorem cursor_onward (before after : Nat) (later : before ≤ after)
    (turn : before / (coordinateLimit + 1) = after / (coordinateLimit + 1)) :
    (cursorIn a before).1 ≤ (cursorIn a after).1 := by
  have further := mod_onward before after _ later turn
  rw [cursor_column a roomy, cursor_column a roomy]
  omega

theorem cursor_back (room : a.x + promptWidth < a.stop) (cursor : Nat) :
    (cursorIn a (cursor + 1)).1 < (cursorIn a cursor).1 ↔ coordinateLimit + 1 ∣ cursor + 1 := by
  constructor
  · intro falls
    apply Decidable.byContradiction
    intro goes
    have turn := (Nat.succ_div_of_not_dvd goes).symm
    exact Nat.not_lt_of_le (cursor_onward a roomy cursor (cursor + 1) (Nat.le_succ cursor) turn) falls
  · intro turns
    have across := roomy.across
    have inside := (stop_inside a roomy).2
    rw [cursor_column a roomy, cursor_column a roomy, Nat.mod_eq_zero_of_dvd turns, mod_last cursor _ turns]
    rw [rightBorder] at inside
    omega

end

theorem cursor_counted (a : Area) (cursor : Nat) :
    cursorIn a cursor = cursorIn a (cursor % (coordinateLimit + 1)) := by
  rw [cursorIn, cursorIn, Nat.mod_mod]

structure CursorDrawn (a : Area) : Prop where
  row : ∀ cursor, (cursorIn a cursor).2 = a.y + 1
  typed : ∀ cursor, a.x + promptWidth + cursor < a.rightBorder →
    (cursorIn a cursor).1 = a.x + promptWidth + cursor
  full : ∀ cursor ≤ coordinateLimit, a.rightBorder ≤ a.x + promptWidth + cursor →
    (cursorIn a cursor).1 = a.stop
  counted : ∀ cursor, cursorIn a cursor = cursorIn a (cursor % (coordinateLimit + 1))
  due : ∀ cursor ≤ coordinateLimit, (cursorIn a cursor).1 = a.due cursor ↔
    a.x + promptWidth + cursor < a.rightBorder ∨ a.stop < a.rightBorder
  bounded : ∀ cursor, a.x + promptWidth ≤ (cursorIn a cursor).1 ∧ (cursorIn a cursor).1 ≤ a.rightBorder
  onward : ∀ before after, before ≤ after → before / (coordinateLimit + 1) = after / (coordinateLimit + 1) →
    (cursorIn a before).1 ≤ (cursorIn a after).1
  back : a.x + promptWidth < a.stop → ∀ cursor, (cursorIn a (cursor + 1)).1 < (cursorIn a cursor).1 ↔
    coordinateLimit + 1 ∣ cursor + 1

theorem cursor_drawn (a : Area) (roomy : a.Roomy) : CursorDrawn a :=
  { row := cursor_row a roomy
    typed := typed_column a roomy
    full := full_column a roomy
    counted := cursor_counted a
    due := due_column a roomy
    bounded := cursor_bounded a roomy
    onward := cursor_onward a roomy
    back := cursor_back a roomy }

theorem cursor_drawn_narrow :
    (inputArea 10 12).Roomy ∧ (cursorIn (inputArea 10 12) 5).1 = 8 ∧ (cursorIn (inputArea 10 12) 6).1 = 9 ∧
      (cursorIn (inputArea 10 12) 65536).1 < (cursorIn (inputArea 10 12) 65535).1 := by
  have roomy : (inputArea 10 12).Roomy := ⟨by decide, by decide, by decide, by decide⟩
  have drawn := cursor_drawn (inputArea 10 12) roomy
  exact ⟨roomy, drawn.typed 5 (by decide), drawn.full 6 (by decide) (by decide),
    (drawn.back (by decide) 65535).mpr (by decide)⟩

end Area

namespace Picture

theorem cursor_strays :
    let a := inputArea 10 12
    let typed := LineEditor.pressAll {} (List.replicate 6 (.char 'a'))
    a.Roomy ∧ (draw 10 12 {} typed []).cursor = (a.rightBorder, a.y + 1) ∧
      a.due typed.cursor = a.rightBorder - 1 ∧
      (draw 10 12 {} ⟨List.replicate 65535 'a', 65535⟩ []).cursor.1 = 9 ∧
      (draw 10 12 {} ⟨List.replicate 65536 'a', 65536⟩ []).cursor.1 = 3 := by
  intro a typed
  exact ⟨⟨by decide, by decide, by decide, by decide⟩, by decide, by decide, by decide, by decide⟩

end Picture
end DarkDrop
