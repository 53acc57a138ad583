import DarkDrop.Json.Scalar
import DarkDrop.Text.Utf8

namespace DarkDrop.Json

inductive Found where
  | scalar (s : Scalar)
  | list
  | object
deriving DecidableEq, Repr

def Found.describe : Found → String
  | .scalar s => s.describe
  | .list => "sequence"
  | .object => "map"

inductive Cause where
  | endInList | endInObject | endInString | endInValue
  | colonExpected | listEndExpected | objectEndExpected | wordExpected | valueExpected
  | badEscape | badNumber | outOfRange | loneSurrogate | splitSurrogate | control
  | keyExpected | trailingComma | trailing | tooDeep
  | wrongType (found : Found) (wanted : String)
  | wrongValue (found : Found) (wanted : String)
  | wrongLength (length : Nat) (wanted : String)
  | missing (field : String)
  | duplicate (field : String)
deriving DecidableEq, Repr

def Cause.message : Cause → String
  | endInList => "EOF while parsing a list"
  | endInObject => "EOF while parsing an object"
  | endInString => "EOF while parsing a string"
  | endInValue => "EOF while parsing a value"
  | colonExpected => "expected `:`"
  | listEndExpected => "expected `,` or `]`"
  | objectEndExpected => "expected `,` or `\x7d`"
  | wordExpected => "expected ident"
  | valueExpected => "expected value"
  | badEscape => "invalid escape"
  | badNumber => "invalid number"
  | outOfRange => "number out of range"
  | loneSurrogate => "lone leading surrogate in hex escape"
  | splitSurrogate => "unexpected end of hex escape"
  | control => "control character (\\u0000-\\u001F) found while parsing a string"
  | keyExpected => "key must be a string"
  | trailingComma => "trailing comma"
  | trailing => "trailing characters"
  | tooDeep => "recursion limit exceeded"
  | wrongType found wanted => "invalid type: " ++ found.describe ++ ", expected " ++ wanted
  | wrongValue found wanted => "invalid value: " ++ found.describe ++ ", expected " ++ wanted
  | wrongLength n wanted => "invalid length " ++ n.repr ++ ", expected " ++ wanted
  | missing field => "missing field `" ++ field ++ "`"
  | duplicate field => "duplicate field `" ++ field ++ "`"

-- A cause and the number of bytes of the text that were left where it was found.
structure Fault where
  cause : Cause
  left : Nat
deriving DecidableEq, Repr

def Fault.before (cause : Cause) (rest : List Char) : Fault := ⟨cause, Text.size rest⟩

-- A fault that counts the first byte of `rest` as read, if there is one.
def Fault.within (cause : Cause) (rest : List Char) : Fault := ⟨cause, Text.size rest - 1⟩

structure Misfit where
  cause : Cause
  line : Nat
  column : Nat
deriving DecidableEq, Repr

def Fault.locate (text : List Char) (f : Fault) : Misfit :=
  let before := (Text.bytes text).take (Text.size text - f.left)
  { cause := f.cause
    line := before.count 10 + 1
    column := (before.reverse.takeWhile (· != 10)).length }

def Misfit.message (m : Misfit) : String :=
  m.cause.message ++ " at line " ++ m.line.repr ++ " column " ++ m.column.repr

end DarkDrop.Json
