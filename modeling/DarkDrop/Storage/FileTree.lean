import DarkDrop.Storage.Error
import DarkDrop.Text.Split
import DarkDrop.Text.Utf8

namespace DarkDrop

inductive FileNode where
  | file (bytes : List UInt8)
  | directory
deriving DecidableEq, Repr

structure FileTree where
  nodes : List (List String × FileNode) := []
deriving DecidableEq, Repr, Inhabited

structure FilePath where
  through : List String
  name : String
  -- Whether a slash follows the name, so that it has to be that of a directory.
  slash : Bool
deriving DecidableEq, Repr

namespace FilePath

def nameLimit : Nat := 255
def lengthLimit : Nat := 4095

def ofString (s : String) : FilePath :=
  let parts := Text.splitAt '/' s.toList
  let names := (parts.filter (! ·.isEmpty)).map String.ofList
  ⟨(if parts.head? = some [] then [".."] else []) ++ names.dropLast, names.getLast?.getD ".",
    parts.getLast? = some []⟩

end FilePath

namespace FileTree

def find? (t : FileTree) (at? : List String) : Option FileNode :=
  if at?.isEmpty then some .directory else (t.nodes.find? (·.1 = at?)).map (·.2)

def put (t : FileTree) (names : List String) (n : FileNode) : FileTree :=
  ⟨t.nodes.filter (·.1 ≠ names) ++ [(names, n)]⟩

def erase (t : FileTree) (names : List String) : FileTree := ⟨t.nodes.filter (·.1 ≠ names)⟩

abbrev Place := Option (List String)

def isDot (name : String) : Bool := name = "." || name = ".."

def parent : Place → Place
  | none | some [] => none
  | some names => some names.dropLast

def child (t : FileTree) (place : Place) (name : String) : Except OsError (Option FileNode) :=
  if FilePath.nameLimit < Text.size name.toList then .error .nameTooLong
  else match place with
    | none => .ok none
    | some names => .ok (t.find? (names ++ [name]))

def enter (t : FileTree) (place : Place) (name : String) : Except OsError Place :=
  if name = "." then .ok place
  else if name = ".." then .ok (parent place)
  else match t.child place name with
    | .error e => .error e
    | .ok none => .error .notFound
    | .ok (some (.file _)) => .error .notDirectory
    | .ok (some .directory) => .ok (place.map (· ++ [name]))

def walk (t : FileTree) (place : Place) : List String → Except OsError Place
  | [] => .ok place
  | name :: names =>
    match t.enter place name with
    | .error e => .error e
    | .ok place => t.walk place names

def reach (t : FileTree) (path : String) : Except OsError (Place × FilePath) :=
  if path.isEmpty then .error .notFound
  else if FilePath.lengthLimit < Text.size path.toList then .error .nameTooLong
  else
    let p := FilePath.ofString path
    (t.walk (some []) p.through).map fun place => (place, p)

def read (t : FileTree) (path : String) : Except OsError (List UInt8) :=
  match t.reach path with
  | .error e => .error e
  | .ok (place, p) =>
    if isDot p.name then .error .isDirectory
    else match t.child place p.name with
      | .error e => .error e
      | .ok none => .error .notFound
      | .ok (some (.file bytes)) => if p.slash then .error .notDirectory else .ok bytes
      | .ok (some .directory) => .error .isDirectory

def write (t : FileTree) (path : String) (bytes : List UInt8) : Except OsError FileTree :=
  match t.reach path with
  | .error e => .error e
  | .ok (place, p) =>
    if isDot p.name || p.slash then .error .isDirectory
    else match t.child place p.name, place with
      | .error e, _ => .error e
      | .ok (some .directory), _ => .error .isDirectory
      | .ok _, none => .error .notFound
      | .ok _, some names => .ok (t.put (names ++ [p.name]) (.file bytes))

def remove (t : FileTree) (path : String) : Except OsError FileTree :=
  match t.reach path with
  | .error e => .error e
  | .ok (place, p) =>
    if isDot p.name then .error .isDirectory
    else match t.child place p.name, place with
      | .error e, _ => .error e
      | .ok (some (.file _)), some names =>
        if p.slash then .error .notDirectory else .ok (t.erase (names ++ [p.name]))
      | .ok (some .directory), _ => .error .isDirectory
      | .ok _, _ => .error .notFound

def makeDirectory (t : FileTree) (path : String) : FileTree :=
  match t.reach path with
  | .error _ => t
  | .ok (place, p) =>
    match t.child place p.name, place with
    | .ok none, some names => if isDot p.name then t else t.put (names ++ [p.name]) .directory
    | _, _ => t

def readText (t : FileTree) (path : String) : Except IoError String :=
  match t.read path with
  | .error e => .error (.os e)
  | .ok bytes =>
    match String.fromUTF8? ⟨bytes.toArray⟩ with
    | some s => .ok s
    | none => .error .notText

end FileTree
end DarkDrop
