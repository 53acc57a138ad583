import DarkDrop.Proofs.Text.PlainCells
import DarkDrop.Terminal.Picture
import Mathlib.Data.List.TakeWhile

namespace DarkDrop
open Text

namespace Picture

def padded (width : Nat) (fill : Char) (s : List Char) : List Char :=
  s.take width ++ List.replicate (width - s.length) fill

def edged (left fill right : Char) (width : Nat) (s : List Char) : List Char :=
  left :: padded (width - 2) fill s ++ [right]

def lined : Nat → List Char → List Char := edged '│' ' ' '│'
def topped : Nat → List Char → List Char := edged '┌' '─' '┐'
def bottomed : Nat → List Char → List Char := edged '└' '─' '┘'

theorem padded_length (width : Nat) (fill : Char) (s : List Char) : (padded width fill s).length = width := by
  rw [padded, List.length_append, List.length_take, List.length_replicate]
  omega

theorem padded_over (width : Nat) (fill : Char) (s : List Char) :
    s.take width ++ (List.replicate width fill).drop (s.take width).length = padded width fill s := by
  rw [padded, List.drop_replicate, List.length_take]
  congr 2
  omega

section

variable (width : Nat) (left fill right : Char)

theorem edged_empty : edged left fill right width [] = left :: (List.replicate (width - 2) fill ++ [right]) := by
  simp [edged, padded]

theorem edged_length (wide : 2 ≤ width) (s : List Char) : (edged left fill right width s).length = width := by
  rw [edged, List.length_append, List.length_cons, padded_length, List.length_singleton]
  omega

theorem framed_reads (wide : 2 ≤ width) (style : Style) :
    (framed width left fill right style).Reads (edged left fill right width []) := by
  have filling := Row.fill_reads (width - 2) fill style
  have whole : Row.Reads (⟨[left], style⟩ :: (Row.fill (width - 2) fill style ++ [⟨[right], style⟩]))
      (edged left fill right width []) := by
    rw [Row.Reads] at filling ⊢
    simp [filling, edged_empty]
  have fits := (Row.reads_length whole).trans (edged_length width left fill right wide [])
  rwa [framed, List.take_of_length_le (Nat.le_of_eq fits)]

theorem inside_reads (wide : 2 ≤ width) (row top : Row) (s : List Char)
    (under : row.Reads (edged left fill right width [])) (above : top.Reads (s.take (width - 2))) :
    (row.overlay 1 top).Reads (edged left fill right width s) := by
  have drawn := Row.overlay_reads under above 1
  have short : (s.take (width - 2)).length ≤ (List.replicate (width - 2) fill).length := by
    rw [List.length_replicate]
    exact List.length_take_le ..
  have text : (edged left fill right width []).take 1 ++ s.take (width - 2) ++
      (edged left fill right width []).drop (1 + (s.take (width - 2)).length) = edged left fill right width s := by
    rw [edged_empty, edged, ← padded_over, Nat.add_comm 1, List.drop_succ_cons, List.drop_append_of_le_length short]
    simp
  have fits := edged_length width left fill right wide s
  rwa [text, edged_length width left fill right wide, List.take_of_length_le (Nat.le_of_eq fits)] at drawn

end

section

variable (width : Nat) (wide : 2 ≤ width)
include wide

theorem line_reads (style : Style) (row : Row) (s : List Char) (reads : row.Reads (s.take (width - 2))) :
    ((sideBorders width style).overlay 1 row).Reads (lined width s) :=
  inside_reads width _ _ _ wide _ row s (framed_reads width _ _ _ wide style) reads

theorem bottom_reads (style : Style) : (bottomBorder width style).Reads (bottomed width []) :=
  framed_reads width _ _ _ wide style

theorem title_reads (style : Style) (title : List Char) (plain : Plain title) :
    (titled width style title).Reads (topped width title) :=
  inside_reads width _ _ _ wide _ _ title (framed_reads width _ _ _ wide {})
    (Row.label_reads (width - 2) style title plain)

theorem hint_reads (hint : String) (plain : Plain (" " ++ hint ++ " ").toList) :
    (hintBorder width hint).Reads (topped width (" " ++ hint ++ " ").toList) := by
  have unbroken := splitAt_whole '\n' _ (plain_lacks plain '\n' (by decide))
  have one : lines (" " ++ hint ++ " ").toList = [(" " ++ hint ++ " ").toList] := by
    rw [lines, unbroken]
    simp
  have room : width - 1 - 1 = width - 2 := by omega
  rw [hintBorder, one, Row.overLabels, Row.overLabels, room]
  apply inside_reads width _ _ _ wide
  · exact Row.restyle_reads (framed_reads width _ _ _ wide inputStyle) _ _ _
  · exact Row.label_reads (width - 2) hintStyle _ plain

omit wide in
theorem input_reads (e : LineEditor) (plain : Plain e.buffer) :
    (inputLine width e).Reads (('>' :: ' ' :: e.buffer).take (width - 2)) := by
  have whole : e.buffer.takeWhile (· ≠ '\n') = e.buffer := by
    rw [List.takeWhile_eq_self_iff]
    exact fun c held => decide_eq_true fun same => plain_lacks plain '\n' (by decide) (same ▸ held)
  rw [inputLine, whole]
  exact Row.text_reads (width - 2) inputStyle _ (plain_append (s := ['>', ' ']) (by decide) plain)

theorem status_reads (p : Page) (plain : Plain p.user.toList) :
    (statusBar width p).Reads (padded width ' ' (' ' :: (statusText p).toList)) := by
  have shown : Plain (statusText p).toList := by
    rw [statusText]
    cases p.link with
    | offline => exact (by decide : Plain "Offline".toList)
    | connecting => exact (by decide : Plain "Connecting...".toList)
    | online =>
        simp only [String.toList_append]
        exact plain_append (by decide) plain
  have drawn := Row.overlay_reads (Row.fill_reads width ' ' barStyle)
    (Row.text_reads (width - 1) (statusStyle p.link) _ shown) 1
  have one : (List.replicate width ' ').take 1 = [' '] := by
    rw [List.take_replicate, Nat.min_eq_left (by omega)]
    rfl
  have front : ' ' :: (statusText p).toList.take (width - 1) = (' ' :: (statusText p).toList).take width := by
    rw [List.take_cons (by omega)]
  have counted : 1 + ((statusText p).toList.take (width - 1)).length =
      ((' ' :: (statusText p).toList).take width).length := by
    rw [← front, List.length_cons, Nat.add_comm]
  have fits := padded_length width ' ' (' ' :: (statusText p).toList)
  rwa [one, List.singleton_append, counted, front, padded_over, List.length_replicate,
    List.take_of_length_le (Nat.le_of_eq fits)] at drawn

end

theorem box_length (width : Nat) (top : Row) (style : Style) (rows : List Row) (h : Nat) :
    (box width top style rows h).length = h := by
  match h with
  | 0 => rfl
  | 1 => rfl
  | h + 2 => simp [box]

section

variable (width : Nat) (top : Row) (style : Style) (rows : List Row) (h : Nat)

theorem box_top : (box width top style rows (h + 1))[0]? = some top := by
  cases h <;> rfl

theorem box_line (i : Nat) (inside : i < h) : (box width top style rows (h + 2))[1 + i]? =
    some ((sideBorders width style).overlay 1 (rows[i]?.getD [])) := by
  rw [box, Nat.add_comm 1, List.cons_append, List.getElem?_cons_succ]
  simp [List.getElem?_append, inside]

theorem box_bottom : (box width top style rows (h + 2))[1 + h]? = some (bottomBorder width style) := by
  rw [box, Nat.add_comm 1, List.cons_append, List.getElem?_cons_succ]
  simp

theorem box_alike (others : List Row) (alike : ∀ i < h, rows[i]? = others[i]?) :
    box width top style rows (h + 2) = box width top style others (h + 2) := by
  have lines : (List.range h).map (fun i => (sideBorders width style).overlay 1 (rows[i]?.getD [])) =
      (List.range h).map fun i => (sideBorders width style).overlay 1 (others[i]?.getD []) := by
    apply List.map_congr_left
    intro i inside
    rw [alike i (List.mem_range.mp inside)]
  rw [box, box, lines]

end

def Shows (rows : List Row) (place : Nat) (s : List Char) : Prop := ∃ r, rows[place]? = some r ∧ r.Reads s

theorem area_row (front area behind : List Row) (place : Nat) (reached : front.length = place) (i : Nat) (r : Row)
    (held : area[i]? = some r) : (front ++ area ++ behind)[place + i]? = some r := by
  have inside := (List.getElem?_eq_some_iff.mp held).1
  rw [← reached, List.append_assoc, List.getElem?_append_right (Nat.le_add_right ..), Nat.add_sub_cancel_left,
    List.getElem?_append_left inside, held]

structure Boxed (rows : List Row) (width place room : Nat) (title : List Char) (texts : List (List Char)) : Prop where
  top : Shows rows place (topped width title)
  line : ∀ i < room, Shows rows (place + (1 + i)) (lined width (texts[i]?.getD []))
  bottom : Shows rows (place + (1 + room)) (bottomed width [])

theorem box_boxed (width : Nat) (wide : 2 ≤ width) (front behind : List Row) (place : Nat)
    (reached : front.length = place) (top : Row) (style : Style) (lines : List Row) (room : Nat) (title : List Char)
    (texts : List (List Char)) (titled : top.Reads (topped width title))
    (read : ∀ i < room, Row.Reads (lines[i]?.getD []) ((texts[i]?.getD []).take (width - 2))) :
    Boxed (front ++ box width top style lines (room + 2) ++ behind) width place room title texts := by
  have row := area_row front (box width top style lines (room + 2)) behind place reached
  apply Boxed.mk
  · exact ⟨top, row 0 top (box_top width top style lines (room + 1)), titled⟩
  · intro i inside
    exact ⟨_, row _ _ (box_line width top style lines room i inside),
      line_reads width wide style _ _ (read i inside)⟩
  · exact ⟨_, row _ _ (box_bottom width top style lines room), bottom_reads width wide style⟩

theorem drawn_reads {α : Type} (width : Nat) (items : List α) (draw : Nat → α → Row) (text : α → List Char)
    (rows : List Row) (drawn : ∀ i, rows[i]? = items[i]?.map (draw i))
    (read : ∀ i, ∀ a ∈ items, (draw i a).Reads ((text a).take width)) (i : Nat) :
    Row.Reads (rows[i]?.getD []) (((items.map text)[i]?.getD []).take width) := by
  rw [drawn, List.getElem?_map]
  cases held : items[i]? with
  | none =>
      rw [Option.map_none, Option.map_none, Option.getD_none, Option.getD_none, List.take_nil]
      rfl
  | some a => exact read i a (List.mem_of_getElem? held)

theorem heights_roomy (k : Nat) : Heights.ofTotal (k + 12) = ⟨k + 1 + 2, 3 + 2, 1 + 2, 1⟩ := by
  rw [Heights.ofTotal, if_pos (Nat.le_add_left 12 k)]
  rfl

end Picture

structure Page.Plain (p : Page) : Prop where
  title : Text.Plain p.title.toList
  body : ∀ line ∈ p.body, Text.Plain line.toList
  hint : Text.Plain p.hint.toList
  user : Text.Plain p.user.toList

namespace Picture

theorem surrounded_plain (s : String) (plain : Plain s.toList) : Plain (" " ++ s ++ " ").toList := by
  simp only [String.toList_append]
  exact plain_append (plain_append (by decide) plain) (by decide)

section

variable (width k : Nat) (p : Page) (e : LineEditor) (notices : List String)

theorem draw_areas : (draw width (k + 12) p e notices).rows =
    screenBox width (k + 1 + 2) p ++ noticeBox width (3 + 2) notices ++ inputBox width (1 + 2) p.hint e ++
      [statusBar width p] := by
  rw [draw, heights_roomy]
  rfl

theorem screen_length : (screenBox width (k + 1 + 2) p).length = k + 3 := box_length ..

theorem notice_length : (noticeBox width (3 + 2) notices).length = 5 := box_length ..

theorem input_length : (inputBox width (1 + 2) p.hint e).length = 3 := box_length ..

variable (wide : 2 ≤ width)
include wide

theorem screen_boxed (plain : p.Plain) : Boxed (draw width (k + 12) p e notices).rows width 0 (k + 1)
    (" " ++ p.title ++ " ").toList (p.body.map String.toList) := by
  have drawn (i : Nat) : (p.body.map fun l => Row.ofText (width - 2) {} (glyphs l.toList))[i]? =
      p.body[i]?.map fun l => Row.ofText (width - 2) {} (glyphs l.toList) := List.getElem?_map
  have read (l : String) (held : l ∈ p.body) := Row.text_reads (width - 2) {} l.toList (plain.body l held)
  have lines := drawn_reads (width - 2) p.body _ String.toList _ drawn fun _ => read
  rw [draw_areas, List.append_assoc, List.append_assoc]
  exact box_boxed width wide [] _ 0 rfl _ _ _ _ _ _
    (title_reads width wide titleStyle _ (surrounded_plain _ plain.title)) fun i _ => lines i

theorem notices_boxed (told : ∀ n ∈ notices, Plain n.toList) :
    Boxed (draw width (k + 12) p e notices).rows width (k + 3) 3 " Notifications ".toList
      (notices.map String.toList) := by
  have drawn (i : Nat) : (notices.mapIdx fun i n => Row.ofLabel (width - 2) (noticeStyle i) n.toList)[i]? =
      notices[i]?.map fun n => Row.ofLabel (width - 2) (noticeStyle i) n.toList := List.getElem?_mapIdx
  have read (i : Nat) (n : String) (held : n ∈ notices) :=
    Row.label_reads (width - 2) (noticeStyle i) n.toList (told n held)
  have lines := drawn_reads (width - 2) notices _ String.toList _ drawn read
  have titled := title_reads width wide {} " Notifications ".toList (by decide)
  rw [draw_areas, List.append_assoc]
  exact box_boxed width wide _ _ _ (screen_length width k p) _ _ _ _ _ _ titled fun i _ => lines i

theorem input_boxed (plain : p.Plain) (typed : Plain e.buffer) :
    Boxed (draw width (k + 12) p e notices).rows width (k + 8) 1 (" " ++ p.hint ++ " ").toList
      [('>' :: ' ' :: e.buffer)] := by
  have place : (screenBox width (k + 1 + 2) p ++ noticeBox width (3 + 2) notices).length = k + 8 := by
    rw [List.length_append, screen_length, notice_length]
  have line : ∀ i < 1, Row.Reads ([inputLine width e][i]?.getD [])
      (([('>' :: ' ' :: e.buffer)][i]?.getD []).take (width - 2)) := by
    intro i inside
    rw [Nat.lt_one_iff.mp inside, List.getElem?_cons_zero, List.getElem?_cons_zero, Option.getD_some, Option.getD_some]
    exact input_reads width e typed
  have titled := hint_reads width wide p.hint (surrounded_plain _ plain.hint)
  rw [draw_areas]
  exact box_boxed width wide _ _ _ place _ _ _ _ _ _ titled line

theorem status_shown (plain : p.Plain) : Shows (draw width (k + 12) p e notices).rows (k + 11)
    (padded width ' ' (' ' :: (statusText p).toList)) := by
  have place : (screenBox width (k + 1 + 2) p ++ noticeBox width (3 + 2) notices ++
      inputBox width (1 + 2) p.hint e).length = k + 11 := by
    rw [List.length_append, List.length_append, screen_length, notice_length, input_length]
  have row := area_row _ [statusBar width p] [] _ place 0 _ rfl
  rw [List.append_nil] at row
  rw [draw_areas]
  exact ⟨_, row, status_reads width wide p plain.user⟩

end

structure LaidOut (width height : Nat) (p : Page) (e : LineEditor) (notices : List String) (rows : List Row) :
    Prop where
  counted : rows.length = height
  even : ∀ r ∈ rows, r.length = width
  title : Shows rows 0 (topped width (" " ++ p.title ++ " ").toList)
  body : ∀ i < height - 11, Shows rows (1 + i) (lined width (p.body[i]?.getD "").toList)
  screenEnd : Shows rows (height - 10) (bottomed width [])
  noticesTop : Shows rows (height - 9) (topped width " Notifications ".toList)
  notice : ∀ k < 3, Shows rows (height - 8 + k) (lined width (notices[k]?.getD "").toList)
  noticesEnd : Shows rows (height - 5) (bottomed width [])
  hint : Shows rows (height - 4) (topped width (" " ++ p.hint ++ " ").toList)
  input : Shows rows (height - 3) (lined width ('>' :: ' ' :: e.buffer))
  inputEnd : Shows rows (height - 2) (bottomed width [])
  offline : p.link = .offline → Shows rows (height - 1) (padded width ' ' (' ' :: "Offline".toList))
  connecting : p.link = .connecting →
    Shows rows (height - 1) (padded width ' ' (' ' :: "Connecting...".toList))
  online : p.link = .online →
    Shows rows (height - 1) (padded width ' ' (' ' :: ("Online as " ++ p.user).toList))
  -- What does not fit into its box is drawn nowhere.
  unread : (draw width height { p with body := p.body.take (height - 11) } e (notices.take 3)).rows = rows

theorem text_line (lines : List String) (i : Nat) :
    (lines.map String.toList)[i]?.getD [] = (lines[i]?.getD "").toList := by
  rw [List.getElem?_map]
  cases lines[i]? <;> rfl

theorem shows_wide (rows : List Row) (place width : Nat) (s : List Char) (wide : s.length = width)
    (shows : Shows rows place s) (r : Row) (held : rows[place]? = some r) : r.length = width := by
  obtain ⟨found, same, reads⟩ := shows
  rw [held] at same
  rw [Option.some.inj same, Row.reads_length reads, wide]

theorem boxed_wide (rows : List Row) (width : Nat) (wide : 2 ≤ width) (place room : Nat) (title : List Char)
    (texts : List (List Char)) (boxed : Boxed rows width place room title texts) (i : Nat) (inside : i < room + 2)
    (r : Row) (held : rows[place + i]? = some r) : r.length = width := by
  have edges : ∀ left fill right s, (edged left fill right width s).length = width :=
    fun left fill right => edged_length width left fill right wide
  by_cases first : i = 0
  · rw [first] at held
    exact shows_wide rows _ width _ (edges ..) boxed.top r held
  · obtain ⟨j, rfl⟩ := Nat.exists_eq_add_of_le (Nat.one_le_iff_ne_zero.mpr first)
    by_cases last : j = room
    · rw [last] at held
      exact shows_wide rows _ width _ (edges ..) boxed.bottom r held
    · exact shows_wide rows _ width _ (edges ..) (boxed.line j (by omega)) r held

theorem draw_unread (width k : Nat) (p : Page) (e : LineEditor) (notices : List String) :
    (draw width (k + 12) { p with body := p.body.take (k + 1) } e (notices.take 3)).rows =
      (draw width (k + 12) p e notices).rows := by
  have screen : screenBox width (k + 1 + 2) { p with body := p.body.take (k + 1) } =
      screenBox width (k + 1 + 2) p := by
    apply box_alike
    intro i inside
    rw [List.getElem?_map, List.getElem?_map, List.getElem?_take_of_lt inside]
  have messages : noticeBox width (3 + 2) (notices.take 3) = noticeBox width (3 + 2) notices := by
    apply box_alike
    intro i inside
    rw [List.getElem?_mapIdx, List.getElem?_mapIdx, List.getElem?_take_of_lt inside]
  rw [draw_areas, draw_areas, screen, messages]
  rfl

theorem draw_length (width k : Nat) (p : Page) (e : LineEditor) (notices : List String) :
    (draw width (k + 12) p e notices).rows.length = k + 12 := by
  rw [draw_areas, List.length_append, List.length_append, List.length_append, screen_length, notice_length,
    input_length]
  rfl

theorem draw_even (width k : Nat) (p : Page) (e : LineEditor) (notices : List String) (wide : 2 ≤ width)
    (plain : p.Plain) (typed : Plain e.buffer) (told : ∀ n ∈ notices, Plain n.toList) :
    ∀ r ∈ (draw width (k + 12) p e notices).rows, r.length = width := by
  intro r member
  obtain ⟨i, held⟩ := List.mem_iff_getElem?.mp member
  have inside := (List.getElem?_eq_some_iff.mp held).1
  rw [draw_length] at inside
  by_cases screen : i < k + 3
  · rw [← Nat.zero_add i] at held
    exact boxed_wide _ width wide 0 (k + 1) _ _ (screen_boxed width k p e notices wide plain) i screen _ held
  · by_cases messages : i < k + 8
    · obtain ⟨j, rfl⟩ := Nat.exists_eq_add_of_le (Nat.le_of_not_lt screen)
      exact boxed_wide _ width wide (k + 3) 3 _ _ (notices_boxed width k p e notices wide told) j (by omega) _ held
    · by_cases line : i < k + 11
      · obtain ⟨j, rfl⟩ := Nat.exists_eq_add_of_le (Nat.le_of_not_lt messages)
        have boxed := input_boxed width k p e notices wide plain typed
        exact boxed_wide _ width wide (k + 8) 1 _ _ boxed j (by omega) _ held
      · obtain rfl : i = k + 11 := by omega
        exact shows_wide _ (k + 11) width _ (padded_length ..) (status_shown width k p e notices wide plain) _ held

theorem screen_layout (width height : Nat) (wide : 2 ≤ width) (high : 12 ≤ height) (p : Page) (e : LineEditor)
    (notices : List String) (plain : p.Plain) (typed : Plain e.buffer) (told : ∀ n ∈ notices, Plain n.toList) :
    LaidOut width height p e notices (draw width height p e notices).rows := by
  obtain ⟨k, rfl⟩ := Nat.exists_eq_add_of_le' high
  have screen := screen_boxed width k p e notices wide plain
  have messages := notices_boxed width k p e notices wide told
  have line := input_boxed width k p e notices wide plain typed
  have status := status_shown width k p e notices wide plain
  have room : k + 12 - 11 = k + 1 := by omega
  exact
    { counted := draw_length width k p e notices
      even := draw_even width k p e notices wide plain typed told
      title := screen.top
      body := by
        intro i inside
        rw [room] at inside
        have row := screen.line i inside
        rwa [text_line, Nat.zero_add] at row
      screenEnd := by
        have place : 0 + (1 + (k + 1)) = k + 12 - 10 := by omega
        have row := screen.bottom
        rwa [place] at row
      noticesTop := messages.top
      notice := by
        intro i inside
        have place : k + 3 + (1 + i) = k + 12 - 8 + i := by omega
        have row := messages.line i inside
        rwa [text_line, place] at row
      noticesEnd := messages.bottom
      hint := line.top
      input := line.line 0 Nat.zero_lt_one
      inputEnd := line.bottom
      offline := fun link => by
        rw [statusText, link] at status
        exact status
      connecting := fun link => by
        rw [statusText, link] at status
        exact status
      online := fun link => by
        rw [statusText, link] at status
        exact status
      unread := draw_unread width k p e notices }

theorem screen_layout_smallest :
    let p : Page :=
      { title := "Menu", body := ["Logged in as alice.", "more"], hint := "/quit", link := .online, user := "alice" }
    let e : LineEditor := ⟨"/join".toList, 5⟩
    let notices := ["latest", "b", "c", "oldest"]
    2 ≤ 6 ∧ 12 ≤ 12 ∧ p.Plain ∧ Plain e.buffer ∧ (∀ n ∈ notices, Plain n.toList) ∧
      LaidOut 6 12 p e notices (draw 6 12 p e notices).rows ∧
      lined 6 (p.body[0]?.getD "").toList = "│Logg│".toList ∧
      lined 6 ('>' :: ' ' :: e.buffer) = "│> /j│".toList ∧
      Shows (draw 6 12 p e notices).rows 11 " Onlin".toList := by
  intro p e notices
  have plain : p.Plain := ⟨by decide, by decide, by decide, by decide⟩
  have typed : Plain e.buffer := by decide
  have told : ∀ n ∈ notices, Plain n.toList := by decide
  have layout := screen_layout 6 12 (by decide) (by decide) p e notices plain typed told
  have status : padded 6 ' ' (' ' :: ("Online as " ++ p.user).toList) = " Onlin".toList := by decide
  refine ⟨by decide, by decide, plain, typed, told, layout, by decide, by decide, ?_⟩
  rw [← status]
  exact layout.online rfl

end Picture
end DarkDrop
