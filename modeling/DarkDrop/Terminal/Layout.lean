namespace DarkDrop

def coordinateLimit : Nat := 0xffff

def addCells (a b : Nat) : Nat := min (a + b) coordinateLimit

structure Area where
  x : Nat
  y : Nat
  width : Nat
  height : Nat
deriving DecidableEq, Repr

structure Heights where
  screen : Nat
  notices : Nat
  input : Nat
  status : Nat
deriving DecidableEq, Repr

namespace Heights

-- The heights where not all rows fit: the screen keeps three, and the others get what is left.
def crowded : Nat → Heights
  | 4 => ⟨3, 0, 1, 0⟩
  | 5 => ⟨3, 1, 0, 1⟩
  | 6 => ⟨3, 1, 1, 1⟩
  | 7 => ⟨3, 2, 1, 1⟩
  | 8 => ⟨3, 2, 2, 1⟩
  | 9 => ⟨3, 3, 2, 1⟩
  | 10 => ⟨3, 3, 3, 1⟩
  | 11 => ⟨3, 4, 3, 1⟩
  | h => ⟨h, 0, 0, 0⟩

def ofTotal (h : Nat) : Heights := if 12 ≤ h then ⟨h - 9, 5, 3, 1⟩ else crowded h

theorem sum_crowded (h : Nat) :
    (crowded h).screen + (crowded h).notices + (crowded h).input + (crowded h).status = h := by
  unfold crowded
  split <;> rfl

theorem sum_ofTotal (h : Nat) :
    (ofTotal h).screen + (ofTotal h).notices + (ofTotal h).input + (ofTotal h).status = h := by
  unfold ofTotal
  split
  · show h - 9 + 5 + 3 + 1 = h
    omega
  · exact sum_crowded h

end Heights

def inputArea (width height : Nat) : Area :=
  let hs := Heights.ofTotal height
  ⟨0, hs.screen + hs.notices, width, hs.input⟩

def promptWidth : Nat := 3
def rightPadding : Nat := 1

-- Where the cursor stands in the area of the input line, with `cursor` characters in front of it.
-- They are counted as a coordinate is, so that 65536 are none.
def cursorIn (a : Area) (cursor : Nat) : Nat × Nat :=
  let offset := min (cursor % (coordinateLimit + 1)) (a.width - (promptWidth + rightPadding))
  (min (addCells (addCells a.x promptWidth) offset) (addCells a.x a.width - rightPadding),
    addCells a.y 1)

end DarkDrop
