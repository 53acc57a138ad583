import DarkDrop.Text.Quoted

namespace DarkDrop

inductive OsError where
  | notFound | noDevice | notDirectory | isDirectory | nameTooLong
deriving DecidableEq, Repr

namespace OsError

def number : OsError → Nat
  | notFound => 2
  | noDevice => 6
  | notDirectory => 20
  | isDirectory => 21
  | nameTooLong => 36

def text : OsError → String
  | notFound => "No such file or directory"
  | noDevice => "No such device or address"
  | notDirectory => "Not a directory"
  | isDirectory => "Is a directory"
  | nameTooLong => "File name too long"

def kind : OsError → String
  | notFound => "NotFound"
  | noDevice => "Uncategorized"
  | notDirectory => "NotADirectory"
  | isDirectory => "IsADirectory"
  | nameTooLong => "InvalidFilename"

end OsError

inductive IoError where
  | os (e : OsError)
  | notText
deriving DecidableEq, Repr

namespace IoError

def message : IoError → String
  | os e => e.text ++ " (os error " ++ e.number.repr ++ ")"
  | notText => "stream did not contain valid UTF-8"

def detail : IoError → String
  | os e =>
    "Os \x7b code: " ++ e.number.repr ++ ", kind: " ++ e.kind ++ ", message: " ++ Text.quoted e.text ++ " \x7d"
  | notText => "Error \x7b kind: InvalidData, message: " ++ Text.quoted notText.message ++ " \x7d"

end IoError
end DarkDrop
