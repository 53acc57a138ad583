import DarkDrop.Play.Client
import DarkDrop.Text.Digits

namespace DarkDrop

inductive TypedLine where
  | command (c : Command)
  | empty
  | unknown (input : String)
  | invalid (command error : String)
deriving DecidableEq, Repr

namespace TypedLine

def complaint? : TypedLine → Option String
  | command _ | empty => none
  | unknown input => some ("Unknown command: " ++ input)
  | invalid c e => some ("/" ++ c ++ ": " ++ e)

def command? : TypedLine → Option Command
  | command c => some c
  | _ => none

def withArgument (name usage : String) (make : String → Command) (arg : List Char) : TypedLine :=
  if arg.isEmpty then invalid name ("usage: " ++ usage) else command (make (.ofList arg))

def playing (arg : List Char) : TypedLine :=
  match Text.readCount arg with
  | some column => command (.play column)
  | none => invalid "play" "usage: /play <column>"

def yes : Option String → TypedLine
  | some user => command (.login user)
  | none => invalid "yes" "no remembered user id"

def ofWord (word : String) (arg : List Char) (remembered : Option String) : TypedLine :=
  match word with
  | "login" | "l" => withArgument "login" "/login <user id>" .login arg
  | "create" | "c" => command .createSession
  | "join" | "j" => withArgument "join" "/join <room id>" .joinSession arg
  | "leave" => command .leaveSession
  | "start" | "s" => command .startGame
  | "play" | "p" => playing arg
  | "disconnect" | "dc" => command .disconnect
  | "yes" | "y" => yes remembered
  | "back" => command .abandonQuickJoin
  | "forget" => command .forgetCachedUser
  | "quit" | "q" => command .quit
  | _ => unknown ("/" ++ word)

def ofBare (line : List Char) : TypedLine :=
  match Text.readCount line with
  | some column => command (.play column)
  | none => command (.login (.ofList line))

def read (line : List Char) (remembered : Option String) : TypedLine :=
  match Text.trimChars line with
  | [] => empty
  | '/' :: rest =>
    let (word, arg) := Text.cutAtBlank rest
    ofWord (.ofList word) (Text.trimChars arg) remembered
  | bare => ofBare bare

end TypedLine
end DarkDrop
