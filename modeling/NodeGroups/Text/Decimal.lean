/-!
# Decimal integers

Integers are written in base ten with a minus sign and no leading zeros. They are read from
ASCII digits, leading zeros allowed, against a largest value: reading stops at the first
character that is no digit or that takes the value past it, so a text with both faults is
answered by the one that stands first.
-/
namespace NodeGroups.Text

/-- Why a text is not an integer of the wanted range. -/
inductive NumberFault where
  | empty
  | invalidDigit
  | tooLarge
  | tooSmall
deriving DecidableEq, Repr

def NumberFault.message : NumberFault → String
  | .empty => "cannot parse integer from empty string"
  | .invalidDigit => "invalid digit found in string"
  | .tooLarge => "number too large to fit in target type"
  | .tooSmall => "number too small to fit in target type"

/-- The value of an ASCII digit. -/
def digit? (c : Char) : Option Nat :=
  if '0' ≤ c ∧ c ≤ '9' then some (c.toNat - '0'.toNat) else none

/-- Continues a number that stands at `value`; `past` is the fault of exceeding `limit`. -/
def readDigits (limit : Nat) (past : NumberFault) (value : Nat) :
    List Char → Except NumberFault Nat
  | [] => .ok value
  | c :: rest =>
    match digit? c with
    | none => .error .invalidDigit
    | some d =>
      if value * 10 + d ≤ limit then readDigits limit past (value * 10 + d) rest
      else .error past

/-- Digits of at least one place. -/
def readNat (limit : Nat) (past : NumberFault) : List Char → Except NumberFault Nat
  | [] => .error .invalidDigit
  | cs => readDigits limit past 0 cs

/-- An optional minus sign and digits, between `-2³¹` and `2³¹ - 1`. -/
def readInt32 : List Char → Except NumberFault Int32
  | [] => .error .empty
  | '-' :: cs => (readNat (Int32.size / 2) .tooSmall cs).map fun n => Int32.ofInt (-n)
  | cs => (readNat (Int32.size / 2 - 1) .tooLarge cs).map fun n => Int32.ofInt n

/-- An optional plus sign and digits, below `2⁶⁴`. -/
def readUInt64 : List Char → Except NumberFault Nat
  | [] => .error .empty
  | '+' :: cs => readNat (UInt64.size - 1) .tooLarge cs
  | cs => readNat (UInt64.size - 1) .tooLarge cs

def natDigits (n : Nat) : List Char := Nat.toDigits 10 n

def intDigits : Int → List Char
  | .ofNat n => natDigits n
  | .negSucc n => '-' :: natDigits (n + 1)

/-- The integer in base ten. -/
def decimal (n : Int) : String := String.ofList (intDigits n)

/-- The word in base ten. -/
def decimal32 (n : Int32) : String := decimal n.toInt

end NodeGroups.Text
