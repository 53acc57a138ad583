import DarkDrop.Text.Edit

namespace DarkDrop

inductive Key where
  | char (c : Char)
  | enter | backspace | delete | esc | left | right | home | end
deriving DecidableEq, Repr

inductive KeyOutcome where
  | edited
  | submitted (line : List Char)
  | quit
deriving DecidableEq, Repr

structure LineEditor where
  buffer : List Char := []
  cursor : Nat := 0
deriving DecidableEq, Repr, Inhabited

namespace LineEditor

-- Presses a key. There is no result where the text cannot be changed at the byte that the cursor
-- stands for.
def press? (e : LineEditor) : Key → Option (LineEditor × KeyOutcome)
  | .char c =>
    (Text.insertAt e.buffer (Text.byteOffset e.buffer e.cursor) c).map fun b =>
      (⟨b, e.cursor + 1⟩, .edited)
  | .backspace =>
    if 0 < e.cursor then
      (Text.removeAt e.buffer (Text.byteOffset e.buffer (e.cursor - 1))).map fun b =>
        (⟨b, e.cursor - 1⟩, .edited)
    else some (e, .edited)
  | .delete =>
    if e.cursor < e.buffer.length then
      (Text.removeAt e.buffer (Text.byteOffset e.buffer e.cursor)).map fun b =>
        ({ e with buffer := b }, .edited)
    else some (e, .edited)
  | .left => some ({ e with cursor := e.cursor - 1 }, .edited)
  | .right =>
    some (if e.cursor < e.buffer.length then { e with cursor := e.cursor + 1 } else e, .edited)
  | .home => some ({ e with cursor := 0 }, .edited)
  | .end => some ({ e with cursor := e.buffer.length }, .edited)
  | .enter => some ({}, .submitted e.buffer)
  | .esc => some (e, .quit)

def press (e : LineEditor) (k : Key) : LineEditor × KeyOutcome := (e.press? k).getD (e, .edited)

def pressAll (e : LineEditor) (ks : List Key) : LineEditor := ks.foldl (fun e k => (e.press k).1) e

end LineEditor
end DarkDrop
