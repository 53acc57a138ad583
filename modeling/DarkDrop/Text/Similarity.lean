namespace DarkDrop.Text

def placeOf (b : List Char) (taken : List Nat) (first stop : Nat) (c : Char) : Option Nat :=
  (List.range stop).find? fun j => first ≤ j && b[j]? = some c && ! taken.contains j

def matchFrom (b : List Char) (range i : Nat) (taken : List Nat) : List Char → List Char × List Nat
  | [] => ([], taken)
  | c :: r =>
    match placeOf b taken (i - range) (min b.length (i + range + 1)) c with
    | some j =>
      let (cs, taken) := matchFrom b range (i + 1) (j :: taken) r
      (c :: cs, taken)
    | none => matchFrom b range (i + 1) taken r

def similarity (a b : List Char) : Float :=
  let range := max a.length b.length / 2 - 1
  let (left, places) := matchFrom b range 0 [] a
  let right := (List.range b.length).filterMap fun j => if places.contains j then b[j]? else none
  let moved := (left.zip right).countP fun p => p.1 ≠ p.2
  let count := left.length
  if a.isEmpty && b.isEmpty then 1
  else if count = 0 then 0
  else
    (count.toFloat / a.length.toFloat + count.toFloat / b.length.toFloat +
      (count - moved / 2).toFloat / count.toFloat) / 3

end DarkDrop.Text
