import DarkDrop.Text.Cells

namespace DarkDrop

inductive Color where
  | reset | white | darkGray | cyan | yellow | green | red
deriving DecidableEq, Repr

structure Style where
  foreground : Color := .reset
  background : Color := .reset
  bold : Bool := false
deriving DecidableEq, Repr

structure Cell where
  symbol : List Char := [' ']
  style : Style := {}
deriving DecidableEq, Repr

abbrev Row := List Cell

namespace Row
open Text

def fill (width : Nat) (c : Char) (s : Style) : Row := List.replicate width ⟨[c], s⟩

def overlay (row : Row) (column : Nat) (top : Row) : Row :=
  (row.take column ++ top ++ row.drop (column + top.length)).take row.length

def ofGlyph (s : Style) (g : Glyph) : Row := ⟨g.text, s⟩ :: List.replicate (g.width - 1) {}

def fitting (width : Nat) : List Glyph → List Glyph
  | [] => []
  | g :: gs => if g.width ≤ width then g :: fitting (width - g.width) gs else []

-- A line of running text: what has no width, or never fits, is left out.
def ofText (width : Nat) (s : Style) (gs : List Glyph) : Row :=
  (fitting width (gs.filter fun g => 0 < g.width && g.width ≤ width)).flatMap (ofGlyph s)

-- Gives each glyph without width to the one before it, or, at the beginning, to the one after it.
-- It vanishes behind a wide glyph.
def attach : List Glyph → List Glyph
  | [] => []
  | g :: gs =>
    if g.width = 0 then
      match attach gs with
      | [] => [⟨g.text, 1⟩]
      | h :: hs => ⟨g.text ++ h.text, h.width⟩ :: hs
    else
      let after := (gs.takeWhile (·.width = 0)).flatMap (·.text)
      ⟨if g.width = 1 then g.text ++ after else g.text, g.width⟩ ::
        attach (gs.dropWhile (·.width = 0))
termination_by gs => gs.length
decreasing_by
  · simp
  · simp only [List.length_cons]; exact Nat.lt_succ_of_le (List.dropWhile_sublist _).length_le

-- A label keeps its glyphs without width. One that counts for no cell at all is not drawn.
def ofLabel (width : Nat) (s : Style) (text : List Char) : Row :=
  if width = 0 || cells text = 0 then [] else (attach (fitting width (glyphs text))).flatMap (ofGlyph s)

def overLabels (s : Style) (limit column : Nat) : List (List Char) → Row → Row
  | [], row => row
  | l :: ls, row =>
    overLabels s limit (column + cells l) ls (row.overlay column (ofLabel (limit - column) s l))

def restyle (row : Row) (s : Style) (column count : Nat) : Row :=
  row.overlay column (((row.drop column).take count).map fun c => { c with style := s })

end Row
end DarkDrop
