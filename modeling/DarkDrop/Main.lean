import DarkDrop.StartUp

open DarkDrop

def osErrorOf : IO.Error → OsError
  | .noFileOrDirectory .. => .notFound
  | .inappropriateType _ number _ => if number.toNat = OsError.isDirectory.number then .isDirectory else .notDirectory
  | .invalidArgument .. => .nameTooLong
  | _ => .noDevice

def readFile (path : String) : IO (Except IoError String) := do
  try
    let bytes ← IO.FS.readBinFile path
    match String.fromUTF8? bytes with
    | some s => return .ok s
    | none => return .error .notText
  catch e => return .error (.os (osErrorOf e))

def leaveWith (x : Exit) : IO UInt32 := do
  IO.print x.stdout
  IO.eprint x.stderr
  return UInt32.ofNat x.status

def main (args : List String) : IO UInt32 := do
  match Options.read args with
  | .error stop => leaveWith (StartUp.ofStop stop)
  | .ok o =>
    let level := StartUp.level o (← IO.getEnv "RUST_LOG")
    let log (ls : List String) : IO Unit := do
      if let some path := o.logFile then IO.FS.writeFile path (StartUp.linesText ls)
    try
      log (StartUp.firstLines o level)
      let reading ← match o.cacheFile with
        | some path => readFile path
        | none => pure (.ok "")
      let x := StartUp.withoutTerminal o level fun _ => reading
      log x.log
      leaveWith x
    catch e => leaveWith (StartUp.failed (IoError.os (osErrorOf e)).detail [])
