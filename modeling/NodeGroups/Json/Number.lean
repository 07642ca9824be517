import NodeGroups.Number.Shortest
import NodeGroups.Text.Decimal

/-!
# Numbers in JSON

A number without fraction and exponent is an integer as long as it fits 64 bits, signed or
not; a zero with a minus sign, a longer one and every other number is binary. A number that is
past the largest of its type is no number.

A binary number is read in two roundings: its digits, as far as they fit 64 bits, and those
times or over a power of ten. It is written by its shortest decimal, in positional notation if
the first digit stands for `10 ^ (-5)` to `10 ^ 15`, and then with at least one digit on either
side of the point; else with one digit before the point and a signed exponent of two digits or
more.
-/
namespace NodeGroups

namespace Binary64

def powerOfTen? (n : Nat) : Option Binary64 := ofFraction? (Nat.pow 10 n) 1

/-- The highest power of ten that there is a binary number for. -/
def highestPower : Nat := 308

/-- A significand over a power of ten, in two steps if one power does not reach. -/
def overPowerOfTen? (x : Binary64) (n : Nat) : Option Binary64 :=
  if n ≤ highestPower then (powerOfTen? n).bind x.over?
  else if n ≤ 2 * highestPower then do
    let first ← (powerOfTen? highestPower).bind x.over?
    (powerOfTen? (n - highestPower)).bind first.over?
  else some zero

/-- The number that is read for `significand · 10 ^ exponent`. -/
def ofDecimal? (significand : Nat) (exponent : Int) : Option Binary64 :=
  if significand = 0 then some zero
  else do
    let x ← ofFraction? significand 1
    if exponent < 0 then x.overPowerOfTen? (-exponent).toNat
    else if exponent ≤ highestPower then (powerOfTen? exponent.toNat).bind x.times?
    else none

/-- The digits of a decimal whose first one stands for `10 ^ first`, in positional notation. -/
def positional (digits : List Char) (first : Int) : List Char :=
  if first < 0 then '0' :: '.' :: List.replicate (-first - 1).toNat '0' ++ digits
  else
    let places := first.toNat + 1
    if digits.length ≤ places then
      digits ++ List.replicate (places - digits.length) '0' ++ ['.', '0']
    else digits.take places ++ '.' :: digits.drop places

def exponentDigits (n : Nat) : List Char :=
  if n < 10 then '0' :: Text.natDigits n else Text.natDigits n

/-- The same with an exponent. -/
def exponential (digits : List Char) (first : Int) : List Char :=
  (match digits with
    | lead :: next :: rest => lead :: '.' :: next :: rest
    | _ => digits) ++
  'e' :: (if first < 0 then '-' else '+') :: exponentDigits first.natAbs

def spell (x : Binary64) : List Char :=
  let shortest := x.shortest
  let digits := Text.natDigits shortest.digits
  let first := shortest.exponent + (digits.length : Int) - 1
  (if x.negative then ['-'] else []) ++
    (if -5 ≤ first ∧ first ≤ 15 then positional digits first else exponential digits first)

end Binary64

namespace Json

inductive Number where
  | int (value : Int)
  | binary (value : Binary64)
deriving DecidableEq, Repr

namespace Number

/-- The largest significand that digits are taken into. -/
def significandLimit : Nat := UInt64.size - 1

/-- Takes digits before the point as far as they fit, and counts those that do not. -/
def takeWhole (value : Nat) : List Char → Nat × Nat
  | [] => (value, 0)
  | c :: rest =>
    let next := value * 10 + (c.toNat - '0'.toNat)
    if next ≤ significandLimit then takeWhole next rest else (value, rest.length + 1)

/-- Takes digits after the point as far as they fit, and counts those that do. -/
def takeFraction (value : Nat) : List Char → Nat × Nat
  | [] => (value, 0)
  | c :: rest =>
    let next := value * 10 + (c.toNat - '0'.toNat)
    if next ≤ significandLimit then
      let (value, taken) := takeFraction next rest
      (value, taken + 1)
    else (value, 0)

def binary? (negative : Bool) (significand : Nat) (exponent : Int) : Option Number :=
  (Binary64.ofDecimal? significand exponent).map fun x => binary (x.signed negative)

/-- The number that a run of digits denotes. -/
def digitsValue (ds : List Char) : Nat := Nat.ofDigitChars 10 ds 0

/-- A number without fraction and exponent. -/
def ofWhole? (negative : Bool) (whole : List Char) : Option Number :=
  let n := digitsValue whole
  if negative then
    if 0 < n ∧ n ≤ Int64.size / 2 then some (int (-n))
    else
      let (value, dropped) := takeWhole 0 whole
      binary? true value dropped
  else if n ≤ significandLimit then some (int n)
  else
    let (value, dropped) := takeWhole 0 whole
    binary? false value dropped

def ofParts? (negative : Bool) (whole fraction : List Char) (exponent : Int) : Option Number :=
  let (value, dropped) := takeWhole 0 whole
  let (value, taken) := takeFraction value fraction
  binary? negative value (exponent + dropped - taken)

/-- An exponent: an optional sign and at least one digit. -/
def exponent? : List Char → Option Int
  | '-' :: ds => if ds ≠ [] ∧ ds.all Char.isDigit then some (-digitsValue ds) else none
  | '+' :: ds => if ds ≠ [] ∧ ds.all Char.isDigit then some (digitsValue ds) else none
  | ds => if ds ≠ [] ∧ ds.all Char.isDigit then some (digitsValue ds) else none

/-- An exponent after its mark, or nothing. -/
def exponentPart? : List Char → Option Int
  | [] => some 0
  | mark :: power => if mark = 'e' ∨ mark = 'E' then exponent? power else none

/-- A number after its sign: no leading zeros, then a fraction and an exponent if any. -/
def ofUnsigned? (negative : Bool) (cs : List Char) : Option Number :=
  let whole := cs.takeWhile Char.isDigit
  if whole = [] ∨ (whole.length > 1 ∧ whole.head? = some '0') then none
  else match cs.dropWhile Char.isDigit with
    | [] => ofWhole? negative whole
    | '.' :: tail =>
      let fraction := tail.takeWhile Char.isDigit
      if fraction = [] then none
      else (exponentPart? (tail.dropWhile Char.isDigit)).bind (ofParts? negative whole fraction)
    | rest => (exponentPart? rest).bind (ofParts? negative whole [])

def ofChars? : List Char → Option Number
  | '-' :: rest => ofUnsigned? true rest
  | cs => ofUnsigned? false cs

end Number
end Json
end NodeGroups
