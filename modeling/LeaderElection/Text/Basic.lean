import LeaderElection.Basic

namespace LeaderElection

namespace Text

-- Cuts at every mark. There is always one part more than there are marks.
def separate (mark : Char) : List Char → List (List Char)
  | [] => [[]]
  | c :: rest =>
    if c = mark then [] :: separate mark rest
    else match separate mark rest with
      | [] => [[c]]
      | first :: others => (c :: first) :: others

-- The property White_Space of the character standard.
def isBlank (c : Char) : Bool :=
  let n := c.toNat
  (9 ≤ n && n ≤ 13) || n = 0x20 || n = 0x85 || n = 0xa0 || n = 0x1680 ||
    (0x2000 ≤ n && n ≤ 0x200a) || n = 0x2028 || n = 0x2029 || n = 0x202f || n = 0x205f || n = 0x3000

def trim (s : List Char) : List Char :=
  ((s.dropWhile isBlank).reverse.dropWhile isBlank).reverse

inductive NumberError where
  | empty
  | notDigit
  | tooLarge
  deriving DecidableEq, Repr

def NumberError.message : NumberError → String
  | .empty => "cannot parse integer from empty string"
  | .notDigit => "invalid digit found in string"
  | .tooLarge => "number too large to fit in target type"

def digit? (c : Char) : Option Nat :=
  if 48 ≤ c.toNat ∧ c.toNat ≤ 57 then some (c.toNat-48) else none

-- The first fault from the left decides: a bad digit behind a number that is already too
-- large is never looked at.
def readDigits : Nat → List Char → Except NumberError UInt16
  | n,[] => .ok n.toUInt16
  | n,c :: rest => match digit? c with
    | none => .error .notDigit
    | some d => if 10*n+d < UInt16.size then readDigits (10*n+d) rest else .error .tooLarge

-- ASCII decimal digits behind an optional plus sign. A sign alone is no number.
def readNumber : List Char → Except NumberError UInt16
  | [] => .error .empty
  | ['+'] => .error .notDigit
  | '+' :: rest => readDigits 0 rest
  | s => readDigits 0 s

-- Letters go on where the digits end, small or capital.
def numeralDigit? (base : Nat) (c : Char) : Option Nat :=
  let value :=
    if c.isLower then some (c.toNat + 10 - 'a'.toNat)
    else if c.isUpper then some (c.toNat + 10 - 'A'.toNat)
    else digit? c
  value.filter (· < base)

-- Digits of one base and nothing else, at least one.
def readNumeral (base : Nat) (s : List Char) : Option Nat :=
  if s = [] then none
  else s.foldlM (fun n c => (numeralDigit? base c).map (base*n + ·)) 0

-- The digits of a fraction below `unit`, a power of ten, without zeros at the end.
def fraction (unit part : Nat) : List Char :=
  if part = 0 ∨ unit < 10 then []
  else (part/(unit/10)).digitChar :: fraction (unit/10) (part%(unit/10))
termination_by unit

-- The largest of the four units that leaves a whole number in front.
def elapsed (d : Nat) : String :=
  let shown (unit : Nat) (name : String) :=
    let tail := fraction unit (d%unit)
    toString (d/unit) ++ (if tail = [] then "" else "." ++ String.ofList tail) ++ name
  if 1000000000 ≤ d then shown 1000000000 "s"
  else if 1000000 ≤ d then shown 1000000 "ms"
  else if 1000 ≤ d then shown 1000 "µs"
  else shown 1 "ns"

end Text
end LeaderElection
