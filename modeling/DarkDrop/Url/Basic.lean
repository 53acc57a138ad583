import DarkDrop.Url.Domain

namespace DarkDrop

inductive Url.Host where
  | name (s : List Char)
  | ipv4 (address : Nat)
  | ipv6 (pieces : List Nat)
deriving DecidableEq, Repr

inductive Url.Path where
  | text (s : List Char)
  | segments (l : List (List Char))
deriving DecidableEq, Repr

structure Url where
  scheme : List Char
  user : List Char := []
  password : List Char := []
  host : Option Url.Host := none
  port : Option Nat := none
  path : Url.Path
  query : Option (List Char) := none
  fragment : Option (List Char) := none
deriving DecidableEq, Repr

namespace Url

inductive Error where
  | emptyHost | invalidPort | invalidIpv4 | invalidIpv6 | invalidDomain | invalidHostCharacter | noScheme
deriving DecidableEq, Repr

def Error.message : Error → String
  | emptyHost => "empty host"
  | invalidPort => "invalid port number"
  | invalidIpv4 => "invalid IPv4 address"
  | invalidIpv6 => "invalid IPv6 address"
  | invalidDomain => "invalid international domain name"
  | invalidHostCharacter => "invalid domain character"
  | noScheme => "relative URL without a base"

def Host.text : Host → List Char
  | .name s => s
  | .ipv4 a => ipv4Text a
  | .ipv6 ps => '[' :: ipv6Text ps ++ [']']

def segmentsText (l : List (List Char)) : List Char := l.flatMap ('/' :: ·)

def Path.write : Path → List Char
  | .text s => s
  | .segments l => segmentsText l

-- What stands between the scheme and the path. A path that starts with an empty segment is kept
-- apart from an authority by a dot.
def authorityText (u : Url) : List Char :=
  match u.host with
  | none => match u.path with
    | .segments ([] :: _ :: _) => ['/', '.']
    | _ => []
  | some h =>
    let password := if u.password.isEmpty then [] else ':' :: u.password
    let userinfo := if u.user.isEmpty && u.password.isEmpty then [] else u.user ++ password ++ ['@']
    let port := match u.port with
      | none => []
      | some p => ':' :: Nat.toDigits 10 p
    '/' :: '/' :: userinfo ++ h.text ++ port

def text (u : Url) : List Char :=
  let query := match u.query with
    | none => []
    | some q => '?' :: q
  let fragment := match u.fragment with
    | none => []
    | some f => '#' :: f
  u.scheme ++ ':' :: u.authorityText ++ u.path.write ++ query ++ fragment

def toString (u : Url) : String := .ofList u.text

end Url
end DarkDrop
