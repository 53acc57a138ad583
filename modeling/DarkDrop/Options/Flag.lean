import DarkDrop.Text.Similarity
import DarkDrop.Url.Read

namespace DarkDrop

def defaultLinkBase : Url :=
  { scheme := "http".toList, host := some (.name "localhost".toList), port := some 3000,
    path := .segments [[]] }

structure Options where
  host : String := "localhost:8000"
  path : String := "api/ws"
  secure : Bool := false
  user : Option String := none
  room : Option String := none
  cacheFile : Option String := none
  linkBase : Url := defaultLinkBase
  logLevel : String := "info"
  logFile : Option String := none
deriving DecidableEq, Repr

inductive Flag where
  | host | path | secure | user | room | cacheFile | linkBase | logLevel | logFile | help | version
deriving DecidableEq, Repr

namespace Flag

def all : List Flag :=
  [host, path, secure, user, room, cacheFile, linkBase, logLevel, logFile, help, version]

def long : Flag → String
  | host => "host"
  | path => "path"
  | secure => "secure"
  | user => "user"
  | room => "room"
  | cacheFile => "cache-file"
  | linkBase => "link-base"
  | logLevel => "log-level"
  | logFile => "log-file"
  | help => "help"
  | version => "version"

def short? : Flag → Option Char
  | user => some 'u'
  | room => some 'r'
  | help => some 'h'
  | version => some 'V'
  | _ => none

def valueName? : Flag → Option String
  | host => some "HOST"
  | path => some "PATH"
  | user => some "USER"
  | room => some "ROOM"
  | cacheFile => some "CACHE_FILE"
  | linkBase => some "LINK_BASE"
  | logLevel => some "LOG_LEVEL"
  | logFile => some "LOG_FILE"
  | secure | help | version => none

def takesValue (f : Flag) : Bool := f.valueName?.isSome

def label (f : Flag) : String :=
  "--" ++ f.long ++ (f.valueName?.map fun v => " <" ++ v ++ ">").getD ""

def ofLong? (name : List Char) : Option Flag := all.find? (·.long.toList = name)

def ofShort? (c : Char) : Option Flag := all.find? (·.short? = some c)

def suggestionThreshold : Float := 0.7

-- The flag whose name is most like another name. Of equals the last one wins.
def similar? (name : List Char) : Option Flag :=
  let better (best : Option (Float × Flag)) (f : Flag) :=
    let s := Text.similarity name f.long.toList
    if suggestionThreshold < s && best.all (·.1 ≤ s) then some (s, f) else best
  (all.foldl better none).map (·.2)

end Flag
end DarkDrop
