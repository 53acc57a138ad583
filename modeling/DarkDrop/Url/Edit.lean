import DarkDrop.Url.Read

namespace DarkDrop.Url

def openPath (l : List (List Char)) : List (List Char) :=
  if l.getLast? = some [] && l ≠ [[]] then l.dropLast else l

-- Adds a whole segment. One that is a dot or two is left out; tabs and line ends vanish from the
-- others, which are then read as a path reads its last segment.
def pushSegment (l : List (List Char)) (segment : List Char) : List (List Char) :=
  if segment = ['.'] || segment = ['.', '.'] then l
  else addSegment (if l = [[]] then [] else l) (encode inSegment (segment.filter (! isTabOrNewline ·))) true

def withSegments (u : Url) (segments : List (List Char)) : Url :=
  match u.path with
  | .text _ => u
  | .segments l => { u with path := .segments (segments.foldl pushSegment (openPath l)) }

def isFormByte (b : UInt8) : Bool :=
  let c := Char.ofNat b.toNat
  c.isAlphanum && b < 0x80 || c ∈ ['*', '-', '.', '_']

def formByte (b : UInt8) : List Char :=
  if isFormByte b then [Char.ofNat b.toNat] else if b = 0x20 then ['+'] else encodeByte b

def formEncode (s : List Char) : List Char := (Text.bytes s).flatMap formByte

def withQuery (u : Url) (name value : List Char) : Url :=
  { u with query := some (formEncode name ++ '=' :: formEncode value) }

end DarkDrop.Url
