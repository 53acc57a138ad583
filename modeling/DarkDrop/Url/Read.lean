import DarkDrop.Url.Basic

namespace DarkDrop.Url

inductive Kind where
  | special (port : Nat)
  | file
  | plain
deriving DecidableEq, Repr

def kindOf (scheme : List Char) : Kind :=
  match String.ofList scheme with
  | "http" | "ws" => .special 80
  | "https" | "wss" => .special 443
  | "ftp" => .special 21
  | "file" => .file
  | _ => .plain

def Kind.isSlash (k : Kind) (c : Char) : Bool := c == '/' || (k != .plain && c == '\\')

def isSchemeChar (c : Char) : Bool := c.isAlphanum || c ∈ ['+', '-', '.']

def scheme? (s : List Char) : Option (List Char × List Char) :=
  match s.dropWhile isSchemeChar with
  | ':' :: r =>
    if (s.head?.map Char.isAlpha).getD false then some ((s.takeWhile isSchemeChar).map Char.toLower, r)
    else none
  | _ => none

def isDrive : List Char → Bool
  | [a, b] => a.isAlpha && (b == ':' || b == '|')
  | _ => false

def isDot (s : List Char) : Bool := String.ofList (s.map Char.toLower) ∈ [".", "%2e"]
def isDotDot (s : List Char) : Bool :=
  String.ofList (s.map Char.toLower) ∈ ["..", "%2e.", ".%2e", "%2e%2e"]

def dropSegment (l : List (List Char)) : List (List Char) :=
  if (l.getLast?.map isDrive).getD false then l else l.dropLast

-- Adds a segment to a path, in which dots move up or stay. After the last one of these the path
-- ends with a slash.
def addSegment (l : List (List Char)) (segment : List Char) (last : Bool) : List (List Char) :=
  if isDotDot segment then dropSegment l ++ (if last then [[]] else [])
  else if isDot segment then l ++ (if last then [[]] else [])
  else l ++ [segment]

def addSegments (l : List (List Char)) : List (List Char) → List (List Char)
  | [] => l
  | [s] => addSegment l s true
  | s :: t :: r => addSegments (addSegment l s false) (t :: r)

def readSegments (k : Kind) (s : List Char) : List (List Char) :=
  let s := if k = .plain then s else s.map fun c => if c = '\\' then '/' else c
  let s := match s with
    | '/' :: r => r
    | r => r
  addSegments [] ((Text.splitAt '/' s).map (encode inPath))

def withDrive : List (List Char) → List (List Char)
  | s :: r => (if isDrive s then s.take 1 ++ [':'] else s) :: r
  | [] => []

def dropEmpty : List (List Char) → List (List Char)
  | [] :: s :: r => dropEmpty (s :: r)
  | l => l

def readPort (k : Kind) (s : List Char) : Except Error (Option Nat × List Char) :=
  let ds := s.takeWhile Char.isDigit
  let r := s.dropWhile Char.isDigit
  let ends := match r with
    | [] => true
    | c :: _ => c ∈ ['/', '\\', '?', '#']
  let port := valueIn 10 ds
  if 65535 < port || ! ends then .error .invalidPort
  else if ds.isEmpty || k = .special port then .ok (none, r)
  else .ok (some port, r)

-- The text of a host: up to a port or a path, but for colons inside brackets.
def hostSpan (ends : Char → Bool) : (bracket : Bool) → List Char → List Char × List Char
  | _, [] => ([], [])
  | bracket, c :: r =>
    if ends c || (c = ':' && ! bracket) then ([], c :: r)
    else
      let (h, t) := hostSpan ends (if c = '[' then true else if c = ']' then false else bracket) r
      (c :: h, t)

def readIpv6 (s : List Char) : Except Error Host :=
  match (s.drop 1).getLast?, ipv6? (s.drop 1).dropLast with
  | some ']', some ps => .ok (.ipv6 ps)
  | _, _ => .error .invalidIpv6

def readDomain (s : List Char) : Except Error Host :=
  if s.head? = some '[' then readIpv6 s
  else match (decode? s).bind domainToAscii with
    | none => .error .invalidDomain
    | some [] => .error .emptyHost
    | some d =>
      if endsInNumber d then
        match ipv4? d with
        | none => .error .invalidIpv4
        | some a => .ok (.ipv4 a)
      else .ok (.name d)

def isForbiddenInHost (c : Char) : Bool :=
  c ∈ ['\x00', '\t', '\n', '\r', ' ', '#', '/', ':', '<', '>', '?', '@', '[', '\\', ']', '^', '|']

def readPlainHost (s : List Char) : Except Error Host :=
  if s.head? = some '[' then readIpv6 s
  else if s.any isForbiddenInHost then .error .invalidHostCharacter
  else .ok (.name (encode isControl s))

def readUserinfo (k : Kind) (s : List Char) : Except Error (List Char × List Char × List Char) :=
  let ends c := k.isSlash c || c = '?' || c = '#'
  let authority := s.takeWhile (! ends ·)
  if ! authority.contains '@' then .ok ([], [], s)
  else
    let info := ((authority.reverse.dropWhile (· != '@')).drop 1).reverse
    let rest := s.drop (info.length + 1)
    if info.isEmpty && (rest.head?.map ends).getD false then .error .emptyHost
    else .ok (encode inUserinfo (info.takeWhile (· != ':')),
      encode inUserinfo ((info.dropWhile (· != ':')).drop 1), rest)

def readTail (k : Kind) (path : List Char → Path) (u : Url) (s : List Char) : Url :=
  let fragment := match s.dropWhile (· != '#') with
    | [] => none
    | _ :: r => some (encode inFragment r)
  let s := s.takeWhile (· != '#')
  let query := match s.dropWhile (· != '?') with
    | [] => none
    | _ :: r => some (encode (if k = .plain then inQuery else inSpecialQuery) r)
  { u with path := path (s.takeWhile (· != '?')), query := query, fragment := fragment }

def rootedPath (k : Kind) (s : List Char) : Path :=
  if k = .plain && s.isEmpty then .segments [] else .segments (readSegments k s)

def readAuthority (k : Kind) (scheme s : List Char) : Except Error Url := do
  let (user, password, s) ← readUserinfo k s
  let (h, s) := hostSpan (fun c => k.isSlash c || c = '?' || c = '#') false s
  if k != .plain && h.isEmpty then throw .emptyHost
  let host ← if k = .plain then readPlainHost h else readDomain h
  if host = .name [] && (s.head? = some ':' || ! user.isEmpty || ! password.isEmpty) then
    throw .emptyHost
  let (port, s) ← match s with
    | ':' :: r => readPort k r
    | r => .ok (none, r)
  return readTail k (rootedPath k) ⟨scheme, user, password, some host, port, .segments [], none, none⟩ s

def ofFile (u : Url) : Url :=
  match u.path with
  | .text _ => u
  | .segments l =>
    { u with
      host := if (l.head?.map isDrive).getD false then some (.name []) else u.host
      path := .segments (dropEmpty (withDrive l)) }

def readFile (scheme s : List Char) : Except Error Url := do
  let u : Url := ⟨scheme, [], [], some (.name []), none, .segments [], none, none⟩
  let tail (u : Url) (s : List Char) := ofFile (readTail .file (rootedPath .file) u s)
  match s with
  | a :: b :: r =>
    if Kind.file.isSlash a && Kind.file.isSlash b then
      let h := r.takeWhile fun c => ! (Kind.file.isSlash c || c = '?' || c = '#')
      let rest := r.drop h.length
      if isDrive h then return tail u r
      else if h.isEmpty then return tail u rest
      else
        let host ← readDomain h
        return tail { u with host := some (if host = .name "localhost".toList then .name [] else host) } rest
    else return tail u s
  | _ => return tail u s

def isTabOrNewline (c : Char) : Bool := c == '\t' || c == '\n' || c == '\r'

def tidy (s : List Char) : List Char :=
  let blank (c : Char) := c.toNat ≤ 0x20
  (((s.dropWhile blank).reverse.dropWhile blank).reverse).filter (! isTabOrNewline ·)

def read (text : List Char) : Except Error Url :=
  match scheme? (tidy text) with
  | none => .error .noScheme
  | some (scheme, s) =>
    match kindOf scheme with
    | .special port => readAuthority (.special port) scheme (s.dropWhile (Kind.special port).isSlash)
    | .file => readFile scheme s
    | .plain =>
      match s with
      | '/' :: '/' :: r => readAuthority .plain scheme r
      | '/' :: _ =>
        .ok (readTail .plain (fun p => .segments (readSegments .plain p)) ⟨scheme, [], [], none, none, .segments [], none, none⟩ s)
      | _ =>
        .ok (readTail .plain (fun p => .text (encode isControl p)) ⟨scheme, [], [], none, none, .segments [], none, none⟩ s)

def ofString (s : String) : Except Error Url := read s.toList

end DarkDrop.Url
