import DarkDrop.Play.Session
import DarkDrop.Text.Digits

namespace DarkDrop.Board

def rightAligned (width : Nat) (s : List Char) : List Char :=
  List.replicate (width - s.length) ' ' ++ s

def columnWidth (board : List (List UInt64)) : Nat := (Text.digits (board.length - 1)).length

def height (board : List (List UInt64)) : Nat := (board.map List.length).foldl max 0

def line (width : Nat) (cells : List (List Char)) : List Char :=
  [' '].intercalate (cells.map (rightAligned width))

def mark (slot : Nat) (column : List UInt64) : Char :=
  if column[slot]?.getD 0 = 0 then '.' else '#'

def draw (board : List (List UInt64)) : List (List Char) :=
  if board.isEmpty then []
  else
    line (columnWidth board) ((List.range board.length).map Text.digits) ::
    (List.range (height board)).reverse.map fun slot =>
      line (columnWidth board) (board.map fun column => [mark slot column])

end DarkDrop.Board
