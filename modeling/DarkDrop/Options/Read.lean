import DarkDrop.Options.Flag

namespace DarkDrop

inductive OptionFault where
  | unexpected (arg : String) (similar : Option Flag) (used : List Flag)
  | missingValue (f : Flag)
  | surplusValue (value : String) (f : Flag) (used : List Flag)
  | repeated (f : Flag)
  | invalidValue (value : String) (f : Flag) (reason : String)
deriving DecidableEq, Repr

inductive Stop where
  | help | version
  | fault (f : OptionFault)
deriving DecidableEq, Repr

-- `used` holds the flags met so far, and `pending` the one whose value is still to be looked at,
-- or still to come.
structure OptionReading where
  options : Options := {}
  used : List Flag := []
  pending : Option (Flag × Option String) := none
deriving DecidableEq, Repr

namespace OptionReading

def set (o : Options) (f : Flag) (value : String) : Except OptionFault Options :=
  match f with
  | .host => .ok { o with host := value }
  | .path => .ok { o with path := value }
  | .user => .ok { o with user := some value }
  | .room => .ok { o with room := some value }
  | .cacheFile =>
    if value.isEmpty then .error (.missingValue f) else .ok { o with cacheFile := some value }
  | .linkBase =>
    match Url.ofString value with
    | .ok u => .ok { o with linkBase := u }
    | .error e => .error (.invalidValue value f e.message)
  | .logLevel => .ok { o with logLevel := value }
  | .logFile =>
    if value.isEmpty then .error (.missingValue f) else .ok { o with logFile := some value }
  | .secure => .ok { o with secure := true }
  | .help | .version => .ok o

def use (r : OptionReading) (f : Flag) (value : String) : OptionReading × Option OptionFault :=
  if f ∈ r.used then ({ r with used := r.used.erase f }, some (.repeated f))
  else
    let r := { r with used := r.used ++ [f] }
    match set r.options f value with
    | .ok o => ({ r with options := o }, none)
    | .error e => (r, some e)

def met (used : List Flag) (f : Flag) : List Flag := if f ∈ used then used else used ++ [f]

def settle (r : OptionReading) : OptionReading × Option OptionFault :=
  match r.pending with
  | none => (r, none)
  | some (f, none) => ({ r with pending := none }, some (.missingValue f))
  | some (f, some value) => { r with pending := none }.use f value

def settled (r : OptionReading) (go : OptionReading → Except Stop OptionReading) :
    Except Stop OptionReading :=
  match r.settle with
  | (_, some e) => .error (.fault e)
  | (r, none) => go r

def useNow (f : Flag) (value : String) (r : OptionReading) : Except Stop OptionReading :=
  match r.use f value with
  | (_, some e) => .error (.fault e)
  | (r, none) => .ok r

def flag (r : OptionReading) (f : Flag) (attached : Option String) : Except Stop OptionReading :=
  match f.takesValue, attached with
  | true, some value => r.settled (useNow f value)
  | true, none => r.settled fun r => .ok { r with pending := some (f, none) }
  | false, some value => .error (.fault (.surplusValue value f (met r.used f)))
  | false, none =>
    r.settled fun r => match f with
      | .help => .error .help
      | .version => .error .version
      | f => useNow f "" r

-- A flag that there is not. What is pending counts as used, whatever is wrong with it.
def unknownLong (r : OptionReading) (name : List Char) : Stop :=
  let used := r.settle.1.used
  let similar := Flag.similar? name
  .fault (.unexpected (.ofList ('-' :: '-' :: name)) similar (similar.toList.foldl met used))

def long (r : OptionReading) (arg : List Char) : Except Stop OptionReading :=
  let name := arg.takeWhile (· ≠ '=')
  let attached := match arg.dropWhile (· ≠ '=') with
    | [] => none
    | _ :: value => some (String.ofList value)
  match Flag.ofLong? name with
  | some f => r.flag f attached
  | none => .error (r.unknownLong name)

def shorts (r : OptionReading) : List Char → Except Stop OptionReading
  | [] => .ok r
  | c :: rest =>
    match Flag.ofShort? c with
    | none => .error (.fault (.unexpected (.ofList ['-', c]) none []))
    | some f =>
      if f.takesValue then
        match rest with
        | [] => r.flag f none
        | '=' :: value => r.flag f (some (.ofList value))
        | value => r.flag f (some (.ofList value))
      else match r.flag f none with
        | .ok r => r.shorts rest
        | .error e => .error e

def bare (r : OptionReading) (arg : String) : Except Stop OptionReading :=
  match r.pending with
  | some (f, none) => .ok { r with pending := some (f, some arg) }
  | _ => .error (.fault (.unexpected arg none []))

def readFrom (r : OptionReading) : List String → Except Stop OptionReading
  | [] => r.settled .ok
  | arg :: args =>
    let next : Except Stop OptionReading := match arg.toList with
      | ['-', '-'] =>
        match args with
        | [] => .ok r
        | other :: _ => .error (.fault (.unexpected other none []))
      | '-' :: '-' :: name => r.long name
      | '-' :: c :: rest => r.shorts (c :: rest)
      | _ => r.bare arg
    match next with
    | .ok r => r.readFrom args
    | .error e => .error e

end OptionReading

def Options.read (args : List String) : Except Stop Options :=
  (({} : OptionReading).readFrom args).map (·.options)

end DarkDrop
