import LeaderElection.Text.Basic

namespace LeaderElection

-- The number of a machine on the internet: four bytes in one, or eight groups of two.
inductive HostNumber where
  | four (number : Nat)
  | six (groups : List Nat)
  deriving DecidableEq, Repr

namespace HostNumber

-- A leading zero makes a part octal, an x behind it hexadecimal.
def readPart : List Char → Option Nat
  | '0' :: 'x' :: digits => Text.readNumeral 16 digits
  | '0' :: 'X' :: digits => Text.readNumeral 16 digits
  | '0' :: digits => Text.readNumeral 8 ('0' :: digits)
  | digits => Text.readNumeral 10 digits

-- Every part is a byte but the last, which fills all the bytes that are left.
def assemble : Nat → List Nat → Option Nat
  | 0,_ => none
  | _,[] => none
  | room+1,[last] => if last < 256^(room+1) then some last else none
  | room+1,part :: rest => if part < 256 then (assemble room rest).map (256^room*part + ·) else none

def readFour (s : List Char) : Option Nat :=
  ((Text.separate '.' s).mapM readPart).bind (assemble 4)

def readByte (s : List Char) : Option Nat :=
  if s.head? = some '0' ∧ s ≠ ['0'] then none else (Text.readNumeral 10 s).filter (· < 256)

def readQuad (s : List Char) : Option (List Nat) :=
  match (Text.separate '.' s).mapM readByte with
  | some [a,b,c,d] => some [256*a+b,256*c+d]
  | _ => none

def readGroup (s : List Char) : Option Nat :=
  if s.length ≤ 4 then Text.readNumeral 16 s else none

-- Only the last part may be a quad.
def readGroups : List (List Char) → Option (List Nat)
  | [] => some []
  | [last] => ((readGroup last).map ([·])).orElse fun _ => readQuad last
  | part :: rest => do return (← readGroup part) :: (← readGroups rest)

def groupParts (s : List Char) : List (List Char) := if s = [] then [] else Text.separate ':' s

def splitGap : List Char → Option (List Char × List Char)
  | [] => none
  | ':' :: ':' :: rest => some ([],rest)
  | c :: rest => (splitGap rest).map fun sides => (c :: sides.1,sides.2)

-- A double colon stands for all the groups that are left out, at least one.
def readSix (s : List Char) : Option (List Nat) :=
  match splitGap s with
  | none => (readGroups (groupParts s)).filter (·.length = 8)
  | some (before,after) => do
    let head ← (groupParts before).mapM readGroup
    let tail ← readGroups (groupParts after)
    if head.length+tail.length < 8 then
      return head ++ List.replicate (8-head.length-tail.length) 0 ++ tail
    else none

-- A number of the long form may name its zone, which is no part of it.
def readZoned (s : List Char) : Option (List Nat) :=
  match s.dropWhile (· != '%') with
  | [] => readSix s
  | _ :: zone =>
    if (Text.readNumeral 10 zone).any (· < UInt32.size) then readSix (s.takeWhile (· != '%')) else none

def read (s : List Char) : Option HostNumber :=
  ((readFour s).map .four).orElse fun _ => (readZoned s).map .six

def loopback : HostNumber := .four (127*256*256*256+1)

-- The number behind a name. Apart from numbers only one name is known without asking others.
def ofName (name : String) : Option HostNumber :=
  if name.toLower = "localhost" then some loopback else read name.toList

end HostNumber

inductive LocatorError where
  | character
  | authority
  | format
  | tooLong
  deriving DecidableEq, Repr

def LocatorError.message : LocatorError → String
  | .character => "invalid uri character"
  | .authority => "invalid authority"
  | .format => "invalid format"
  | .tooLong => "uri too long"

-- What follows the scheme of a locator: an authority, of which a machine's name is a part, and
-- maybe a path and a query.
namespace Locator

-- What is known of an authority from its start up to some place. Colons and percent signs count
-- only where they are not a user's or a bracket's.
structure Scan where
  colons : Nat
  opened : Bool
  closed : Bool
  percent : Bool
  deriving DecidableEq, Repr

def Scan.start : Scan := ⟨0,false,false,false⟩

def plain (c : Char) : Bool := c.isAlphanum || "!$&'()*+,-.;=_~".contains c

-- The first fault from the left decides.
def Scan.step (s : Scan) (c : Char) : Except LocatorError Scan := match c with
  | ':' => if s.colons < 8 then .ok {s with colons := s.colons+1} else .error .authority
  | '[' => if s.percent ∨ s.opened then .error .authority else .ok {s with opened := true}
  | ']' =>
    if s.opened ∧ !s.closed then .ok {s with closed := true, colons := 0, percent := false}
    else .error .authority
  | '@' => .ok {s with colons := 0, percent := false}
  | '%' => .ok {s with percent := true}
  | c => if plain c then .ok s else .error .character

-- Brackets come in pairs, one colon stands before the port, and a user has a machine.
def checkAuthority (s : List Char) : Except LocatorError Unit := do
  let scan ← s.foldlM Scan.step Scan.start
  if scan.opened ≠ scan.closed ∨ 1 < scan.colons ∨ s.getLast? = some '@' ∨ scan.percent then
    .error .authority
  else if s = [] then .error .format
  else .ok ()

def inPath (c : Char) : Bool :=
  let n := c.toNat
  (0x21 ≤ n && n ≤ 0x7e) && c != '<' && c != '>' && n != 0x60

def inQuery (c : Char) : Bool :=
  let n := c.toNat
  (0x21 ≤ n && n ≤ 0x7e) && c != '<' && c != '>' && n != 0x22

-- What stands behind a hash sign is never looked at.
def checkQuery : List Char → Except LocatorError Unit
  | [] => .ok ()
  | c :: rest =>
    if c = '#' then .ok () else if inQuery c then checkQuery rest else .error .character

def checkPath : List Char → Except LocatorError Unit
  | [] => .ok ()
  | c :: rest =>
    if c = '#' then .ok ()
    else if c = '?' then checkQuery rest
    else if inPath c then checkPath rest
    else .error .character

def within (c : Char) : Bool := c != '/' && c != '?' && c != '#'

-- The name stands behind the user and before the port, or in brackets.
def nameOf (authority : List Char) : List Char :=
  match (authority.reverse.takeWhile (· != '@')).reverse with
  | '[' :: rest => rest.takeWhile (· != ']')
  | rest => rest.takeWhile (· != ':')

def size (scheme s : String) : Nat := (scheme ++ "://" ++ s).utf8ByteSize

def longest : Nat := 65534

def host (scheme s : String) : Except LocatorError String := do
  if longest < size scheme s then throw .tooLong
  let authority := s.toList.takeWhile within
  checkAuthority authority
  checkPath (s.toList.dropWhile within)
  return String.ofList (nameOf authority)

end Locator
end LeaderElection
