import DarkDrop.Json.Scalar

namespace DarkDrop.Json

inductive Value where
  | scalar (s : Scalar)
  | list (vs : List Value)
  | object (ms : List (String × Value))

namespace Value

def ofNat (n : UInt64) : Value := .scalar (.number (.whole n))
def ofString (s : String) : Value := .scalar (.text s)
def ofStrings (l : List String) : Value := .list (l.map ofString)

end Value

def hexDigit (n : Nat) : Char := if n < 10 then .ofNat ('0'.toNat + n) else .ofNat ('a'.toNat + n - 10)

def writtenChar (c : Char) : List Char :=
  if c = '"' then ['\\', '"']
  else if c = '\\' then ['\\', '\\']
  else if c = '\x08' then ['\\', 'b']
  else if c = '\x0c' then ['\\', 'f']
  else if c = '\n' then ['\\', 'n']
  else if c = '\r' then ['\\', 'r']
  else if c = '\t' then ['\\', 't']
  else if c.toNat < 0x20 then ['\\', 'u', '0', '0', hexDigit (c.toNat / 16), hexDigit (c.toNat % 16)]
  else [c]

def writtenString (s : String) : List Char := '"' :: s.toList.flatMap writtenChar ++ ['"']

def Scalar.write : Scalar → List Char
  | .null => ['n', 'u', 'l', 'l']
  | .bool true => ['t', 'r', 'u', 'e']
  | .bool false => ['f', 'a', 'l', 's', 'e']
  | .number n => n.text
  | .text s => writtenString s

mutual

def Value.write : Value → List Char
  | .scalar s => s.write
  | .list [] => ['[', ']']
  | .list (v :: vs) => '[' :: v.write ++ writeRest vs ++ [']']
  | .object [] => ['{', '}']
  | .object ((k, v) :: ms) => '{' :: writtenString k ++ ':' :: v.write ++ writeMembers ms ++ ['}']

def writeRest : List Value → List Char
  | [] => []
  | v :: vs => ',' :: v.write ++ writeRest vs

def writeMembers : List (String × Value) → List Char
  | [] => []
  | (k, v) :: ms => ',' :: writtenString k ++ ':' :: v.write ++ writeMembers ms

end

def setMember (k : String) (v : Value) : List (String × Value) → List (String × Value)
  | [] => [(k, v)]
  | (l, w) :: ms =>
    if k = l then (k, v) :: ms
    else if k < l then (k, v) :: (l, w) :: ms
    else (l, w) :: setMember k v ms

end DarkDrop.Json
