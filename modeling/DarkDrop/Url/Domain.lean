import DarkDrop.Text.Blank
import DarkDrop.Url.Ip
import DarkDrop.Url.Punycode

namespace DarkDrop.Url

def isForbiddenInDomain (c : Char) : Bool :=
  c.toNat ≤ 0x20 || c.toNat = 0x7f || c ∈ ['#', '/', ':', '<', '>', '?', '@', '[', '\\', ']', '^', '|', '%']

def lowered (c : Char) : Char :=
  let n := c.toNat
  if c.isUpper then c.toLower
  else if 0xc0 ≤ n && n ≤ 0xde && n != 0xd7 then .ofNat (n + 0x20)
  else if (0x100 ≤ n && n ≤ 0x137 && n != 0x130) || (0x14a ≤ n && n ≤ 0x177) then
    .ofNat (n + (1 - n % 2))
  else if (0x139 ≤ n && n ≤ 0x148) || (0x179 ≤ n && n ≤ 0x17e) then .ofNat (n + n % 2)
  else if 0x391 ≤ n && n ≤ 0x3a9 && n != 0x3a2 then .ofNat (n + 0x20)
  else if 0x410 ≤ n && n ≤ 0x42f then .ofNat (n + 0x20)
  else if 0x400 ≤ n && n ≤ 0x40f then .ofNat (n + 0x50)
  else if 0xff21 ≤ n && n ≤ 0xff3a then .ofNat (n - 0xff21 + 'a'.toNat)
  else if 0xff01 ≤ n && n ≤ 0xff5e then .ofNat (n - 0xff01 + '!'.toNat)
  else if n = 0x3002 || n = 0xff61 then '.'
  else c

def isIgnored (c : Char) : Bool := c.toNat ∈ [0xad, 0x200b, 0x2060, 0xfeff]

def isAllowedInLabel (c : Char) : Bool :=
  if c.toNat < 0x80 then ! isForbiddenInDomain c
  else ! (c.toNat < 0xa0 || Text.isBlank c || 0xfff0 ≤ c.toNat && c.toNat ≤ 0xffff)

def isAscii (s : List Char) : Bool := s.all (·.toNat < 0x80)

def punycodeMark : List Char := ['x', 'n', '-', '-']

-- A label in ASCII. One that is in Punycode already has to stand for a label outside ASCII.
def labelToAscii (s : List Char) : Option (List Char) :=
  if ! s.all isAllowedInLabel then none
  else if ! isAscii s then some (punycodeMark ++ Punycode.encode s)
  else if punycodeMark.isPrefixOf s then
    match Punycode.decode (s.drop 4) with
    | none => none
    | some t =>
      if ! isAscii t && t.all (fun c => lowered c = c && ! isIgnored c && isAllowedInLabel c) then some s
      else none
  else some s

def domainToAscii (s : List Char) : Option (List Char) := do
  let labels ← (Text.splitAt '.' ((s.filter (! isIgnored ·)).map lowered)).mapM labelToAscii
  return Text.joinWith ['.'] labels

end DarkDrop.Url
