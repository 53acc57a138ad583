namespace DarkDrop.Text

def splitAt (sep : Char) : List Char → List (List Char)
  | [] => [[]]
  | c :: r =>
    if c = sep then [] :: splitAt sep r
    else match splitAt sep r with
      | p :: ps => (c :: p) :: ps
      | [] => [[c]]

def joinWith (sep : List Char) : List (List Char) → List Char
  | [] => []
  | [p] => p
  | p :: q :: ps => p ++ sep ++ joinWith sep (q :: ps)

theorem splitAt_ne_nil (sep : Char) (s : List Char) : splitAt sep s ≠ [] := by
  cases s with
  | nil => simp [splitAt]
  | cons c r =>
    simp only [splitAt]
    split
    · simp
    · split <;> simp

theorem splitAt_whole (sep : Char) (s : List Char) (whole : sep ∉ s) : splitAt sep s = [s] := by
  induction s with
  | nil => rfl
  | cons c r ih =>
    rw [List.mem_cons, not_or] at whole
    rw [splitAt, if_neg (Ne.symm whole.1), ih whole.2]

theorem joinWith_splitAt (sep : Char) (s : List Char) : joinWith [sep] (splitAt sep s) = s := by
  induction s with
  | nil => rfl
  | cons c r ih =>
    simp only [splitAt]
    split
    · next same =>
      cases parts : splitAt sep r with
      | nil => exact absurd parts (splitAt_ne_nil sep r)
      | cons p ps => simpa [joinWith, same, parts] using ih
    · cases parts : splitAt sep r with
      | nil => exact absurd parts (splitAt_ne_nil sep r)
      | cons p ps =>
        cases ps with
        | nil => simpa [joinWith, parts] using ih
        | cons q qs => simpa [joinWith, parts] using ih

end DarkDrop.Text
