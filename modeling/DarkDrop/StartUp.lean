import DarkDrop.Link.Endpoint
import DarkDrop.Options.Message
import DarkDrop.Storage.FileTree
import DarkDrop.Storage.UserCache

namespace DarkDrop

inductive LogLevel where
  | off | error | warn | info | debug | trace
deriving DecidableEq, Repr

namespace LogLevel

def rank : LogLevel → Nat
  | off => 0
  | error => 1
  | warn => 2
  | info => 3
  | debug => 4
  | trace => 5

-- Names are read in any case. What is no name turns everything off.
def ofString (s : String) : LogLevel :=
  match String.ofList (s.toList.map Char.toLower) with
  | "error" => error
  | "warn" => warn
  | "info" => info
  | "debug" => debug
  | "trace" => trace
  | _ => off

end LogLevel

structure LogLine where
  level : LogLevel
  text : String
deriving DecidableEq, Repr

namespace LogLine

def starting (e : Endpoint) : LogLine :=
  ⟨.info, "INFO inthedark_tui: client starting host=" ++ e.host ++ " secure=" ++ toString e.secure⟩

def cacheLoaded (path : String) (c : UserCache) : LogLine :=
  ⟨.debug, "DEBUG inthedark_tui::cache: user cache loaded path=" ++ path ++ " cached=" ++
    toString c.user.isSome⟩

def kept (limit : LogLevel) (ls : List LogLine) : List String :=
  (ls.filter fun l => l.level.rank ≤ limit.rank).map (·.text)

end LogLine

structure TerminalError where
  cause : IoError
deriving DecidableEq, Repr

namespace TerminalError

def message (e : TerminalError) : String := "I/O error: " ++ e.cause.message
def detail (e : TerminalError) : String := "Io(" ++ e.cause.detail ++ ")"

def missing : TerminalError := ⟨.os .noDevice⟩

end TerminalError

structure Exit where
  status : Nat
  stdout : String := ""
  stderr : String := ""
  log : List String := []
deriving DecidableEq, Repr

namespace StartUp

def ofStop : Stop → Exit
  | .help => { status := 0, stdout := helpText }
  | .version => { status := 0, stdout := versionText }
  | .fault f => { status := 2, stderr := f.message }

def failed (detail : String) (log : List String) : Exit :=
  { status := 1, stderr := "Error: " ++ detail ++ "\n", log := log }

def linesText (ls : List String) : String := String.join (ls.map (· ++ "\n"))

-- The name of a level in the environment wins over that in the options.
def level (o : Options) (environment : Option String) : LogLevel :=
  .ofString (environment.getD o.logLevel)

def endpoint (o : Options) : Endpoint := ⟨o.host, o.path, o.secure⟩

def firstLines (o : Options) (level : LogLevel) : List String :=
  LogLine.kept level [.starting (endpoint o)]

def openCache (o : Options) (reading : String → Except IoError String) :
    Except CacheError (UserCache × List LogLine) :=
  match o.cacheFile with
  | none => .ok ({}, [])
  | some path => (UserCache.ofFile path (reading path)).map fun c => (c, [.cacheLoaded path c])

def withoutTerminal (o : Options) (level : LogLevel) (reading : String → Except IoError String) : Exit :=
  match openCache o reading with
  | .error e => failed e.detail (firstLines o level)
  | .ok (_, lines) => failed TerminalError.missing.detail (firstLines o level ++ LogLine.kept level lines)

def makeLog (t : FileTree) (path : String) (lines : List String) : Except OsError FileTree :=
  t.write path (Text.bytes (linesText lines).toList)

def inDirectory (t : FileTree) (environment : Option String) (args : List String) : Exit :=
  match Options.read args with
  | .error stop => ofStop stop
  | .ok o =>
    match o.logFile with
    | none => { withoutTerminal o (level o environment) t.readText with log := [] }
    | some path =>
      match makeLog t path (firstLines o (level o environment)) with
      | .error e => failed (IoError.os e).detail []
      | .ok t => withoutTerminal o (level o environment) t.readText

end StartUp
end DarkDrop
