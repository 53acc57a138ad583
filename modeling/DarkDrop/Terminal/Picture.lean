import DarkDrop.Terminal.Cell
import DarkDrop.Terminal.Layout
import DarkDrop.Terminal.LineEditor
import DarkDrop.Terminal.Page
import DarkDrop.Text.Split

namespace DarkDrop

structure Picture where
  rows : List Row
  cursor : Nat × Nat
deriving DecidableEq, Repr

namespace Picture
open Text

def framed (width : Nat) (left fill right : Char) (s : Style) : Row :=
  (⟨[left], s⟩ :: (Row.fill (width - 2) fill s ++ [⟨[right], s⟩])).take width

def topBorder (width : Nat) (s : Style) : Row := framed width '┌' '─' '┐' s
def sideBorders (width : Nat) (s : Style) : Row := framed width '│' ' ' '│' s
def bottomBorder (width : Nat) (s : Style) : Row := framed width '└' '─' '┘' s

def titled (width : Nat) (s : Style) (title : List Char) : Row :=
  (topBorder width {}).overlay 1 (Row.ofLabel (width - 2) s title)

-- A box around lines of text. Its height is that of the whole box, and one row shows the top
-- alone.
def box (width : Nat) (top : Row) (s : Style) (lines : List Row) : Nat → List Row
  | 0 => []
  | 1 => [top]
  | h + 2 =>
    top :: (List.range h).map (fun i => (sideBorders width s).overlay 1 (lines[i]?.getD [])) ++
      [bottomBorder width s]

def titleStyle : Style := { foreground := .cyan, bold := true }

def screenBox (width height : Nat) (p : Page) : List Row :=
  box width (titled width titleStyle (" " ++ p.title ++ " ").toList) {}
    (p.body.map fun l => Row.ofText (width - 2) {} (glyphs l.toList)) height

def noticeStyle (i : Nat) : Style := { foreground := if i = 0 then .yellow else .darkGray }

def noticeBox (width height : Nat) (notices : List String) : List Row :=
  box width (titled width {} " Notifications ".toList) {}
    (notices.mapIdx fun i n => Row.ofLabel (width - 2) (noticeStyle i) n.toList) height

def inputStyle : Style := { foreground := .white }
def hintStyle : Style := { foreground := .darkGray }

def lines (s : List Char) : List (List Char) :=
  let ls := splitAt '\n' s
  ls.mapIdx fun i l => if i + 1 < ls.length && l.getLast? = some '\r' then l.dropLast else l

def hintBorder (width : Nat) (hint : String) : Row :=
  let ls := lines (" " ++ hint ++ " ").toList
  let title := min ((ls.map cells).foldr (· + ·) 0) (width - 2)
  Row.overLabels hintStyle (width - 1) 1 ls ((topBorder width inputStyle).restyle hintStyle 1 title)

def inputLine (width : Nat) (e : LineEditor) : Row :=
  Row.ofText (width - 2) inputStyle (glyphs ('>' :: ' ' :: e.buffer.takeWhile (· ≠ '\n')))

def inputBox (width height : Nat) (hint : String) (e : LineEditor) : List Row :=
  box width (hintBorder width hint) inputStyle [inputLine width e] height

def statusText (p : Page) : String :=
  match p.link with
  | .offline => "Offline"
  | .connecting => "Connecting..."
  | .online => "Online as " ++ p.user

def barStyle : Style := { foreground := .white, background := .darkGray }

def statusStyle : LinkStatus → Style
  | .offline => { barStyle with foreground := .red }
  | .connecting => { barStyle with foreground := .yellow }
  | .online => { barStyle with foreground := .green, bold := true }

def statusBar (width : Nat) (p : Page) : Row :=
  (Row.fill width ' ' barStyle).overlay 1
    (Row.ofText (width - 1) (statusStyle p.link) (glyphs (statusText p).toList))

def draw (width height : Nat) (p : Page) (e : LineEditor) (notices : List String) : Picture :=
  let hs := Heights.ofTotal height
  { rows :=
      screenBox width hs.screen p ++ noticeBox width hs.notices notices ++
      inputBox width hs.input p.hint e ++ List.replicate hs.status (statusBar width p)
    cursor := cursorIn (inputArea width height) e.cursor }

end Picture
end DarkDrop
