import DarkDrop.Options.Read

namespace DarkDrop

def programName : String := "inthedark-tui"

def versionText : String := programName ++ " 0.1.0\n"

def Flag.helpLine : Flag → String
  | .host => "      --host <HOST>              Server host, with port [default: localhost:8000]"
  | .path => "      --path <PATH>              WebSocket path on the server [default: api/ws]"
  | .secure => "      --secure                   Use TLS (wss)"
  | .user => "  -u, --user <USER>              Log in as this user at startup"
  | .room => "  -r, --room <ROOM>              Room id to join once connected"
  | .cacheFile => "      --cache-file <CACHE_FILE>  File remembering the last user id"
  | .linkBase =>
    "      --link-base <LINK_BASE>    Page that shareable room links point at [default: http://localhost:3000/]"
  | .logLevel =>
    "      --log-level <LOG_LEVEL>    Log level (trace, debug, info, warn, error) [default: info]"
  | .logFile =>
    "      --log-file <LOG_FILE>      Write logs to this file. The terminal is busy with the UI"
  | .help => "  -h, --help                     Print help"
  | .version => "  -V, --version                  Print version"

def usage (used : List Flag) : String :=
  "Usage: " ++ programName ++ " " ++
    if used.isEmpty then "[OPTIONS]" else " ".intercalate (used.map Flag.label)

def helpText : String :=
  "Terminal client for Connect in the Dark\n\n" ++ usage [] ++ "\n\nOptions:\n" ++
    String.join (Flag.all.map fun f => f.helpLine ++ "\n")

namespace OptionFault

def quote (s : String) : String := "'" ++ s ++ "'"

def text : OptionFault → String
  | unexpected arg _ _ => "unexpected argument " ++ quote arg ++ " found"
  | missingValue f => "a value is required for " ++ quote f.label ++ " but none was supplied"
  | surplusValue value f _ =>
    "unexpected value " ++ quote value ++ " for " ++ quote f.label ++ " found; no more were expected"
  | repeated f => "the argument " ++ quote f.label ++ " cannot be used multiple times"
  | invalidValue value f reason =>
    "invalid value " ++ quote value ++ " for " ++ quote f.label ++ ": " ++ reason

def tip? : OptionFault → Option String
  | unexpected _ (some f) _ => some ("  tip: a similar argument exists: " ++ quote ("--" ++ f.long))
  | _ => none

def usage? : OptionFault → Option String
  | unexpected _ _ used | surplusValue _ _ used => some (usage used)
  | repeated _ => some (usage [])
  | missingValue _ | invalidValue .. => none

def message (f : OptionFault) : String :=
  let parts := ["error: " ++ f.text] ++ f.tip?.toList ++ f.usage?.toList ++
    ["For more information, try '--help'."]
  "\n\n".intercalate parts ++ "\n"

end OptionFault
end DarkDrop
