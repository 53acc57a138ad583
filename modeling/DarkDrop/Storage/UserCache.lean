import DarkDrop.Storage.FileTree
import DarkDrop.Text.Blank

namespace DarkDrop

structure UserCache where
  path : Option String := none
  user : Option String := none
deriving DecidableEq, Repr, Inhabited

structure CacheError where
  path : String
  cause : IoError
deriving DecidableEq, Repr

namespace CacheError

def message (e : CacheError) : String := "user cache " ++ e.path ++ ": " ++ e.cause.message

def detail (e : CacheError) : String :=
  "Io \x7b path: " ++ Text.quoted e.path ++ ", source: " ++ e.cause.detail ++ " \x7d"

end CacheError

inductive FileChange where
  | write (path text : String)
  | remove (path : String)
deriving DecidableEq, Repr

namespace FileChange

def path : FileChange → String
  | write p _ | remove p => p

-- How a change went for the cache. A file to be removed may as well be missing.
def settle (c : FileChange) : Except OsError Unit → Except CacheError Unit
  | .ok () => .ok ()
  | .error e =>
    match c, e with
    | remove _, .notFound => .ok ()
    | _, _ => .error ⟨c.path, .os e⟩

end FileChange

def FileTree.apply (t : FileTree) (c : FileChange) : FileTree × Except OsError Unit :=
  let changed := match c with
    | .write path text => t.write path (Text.bytes text.toList)
    | .remove path => t.remove path
  match changed with
  | .ok t => (t, .ok ())
  | .error e => (t, .error e)

namespace UserCache

def userOfText (s : String) : Option String := some (Text.trim s) |>.filter (! ·.isEmpty)

def ofFile (path : String) : Except IoError String → Except CacheError UserCache
  | .ok text => .ok ⟨some path, userOfText text⟩
  | .error (.os .notFound) => .ok ⟨some path, none⟩
  | .error e => .error ⟨path, e⟩

def store (c : UserCache) (user : Option String) : UserCache × Option FileChange :=
  ({ c with user := user },
    c.path.map fun p => match user with
      | some u => .write p u
      | none => .remove p)

end UserCache
end DarkDrop
