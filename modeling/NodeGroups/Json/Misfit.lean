import NodeGroups.Json.Printer
import NodeGroups.Text.Quoted

/-!
# Where a value does not fit

A reader goes through the compact text of a value from left to right and stops at the first
part that is not what it expects. A `Check` tells what stops it, and after how many bytes. A
part of a wrong type is read to its end before it is refused, but a bracket is not entered.
What an object lacks is noticed behind its closing brace. Checks only tell what is wrong; what
a value stands for is not their matter.
-/
namespace NodeGroups.Json

/-- What stops a reader. -/
inductive MisfitCause where
  | wrongType (found : Json) (expected : String)
  | outOfRange (found : Int) (expected : String)
  | tooShort (length : Nat) (expected : String)
  | missing (field : String)
  /-- A list goes on where it should have ended. -/
  | surplus
deriving Repr

structure Misfit where
  cause : MisfitCause
  column : Nat
deriving Repr

def described : Json → String
  | null => "null"
  | bool b => "boolean `" ++ (if b then "true" else "false") ++ "`"
  | int n => "integer `" ++ Text.decimal n ++ "`"
  | binary x => "floating point `" ++ String.ofList x.spell ++ "`"
  | text s => "string " ++ Text.quoted s
  | array _ => "sequence"
  | object _ => "map"

def MisfitCause.message : MisfitCause → String
  | .wrongType found expected =>
    "invalid type: " ++ found.described ++ ", expected " ++ expected
  | .outOfRange found expected =>
    "invalid value: " ++ (Json.int found).described ++ ", expected " ++ expected
  | .tooShort length expected =>
    "invalid length " ++ Text.decimal length ++ ", expected " ++ expected
  | .missing field => "missing field `" ++ field ++ "`"
  | .surplus => "trailing characters"

/-- A compact text has one line. -/
def Misfit.message (m : Misfit) : String :=
  m.cause.message ++ " at line 1 column " ++ Text.decimal m.column

/-- The bytes that the value takes in a compact text. -/
def width (j : Json) : Nat := j.compact.utf8ByteSize

/-- A part of a text: a value and the number of bytes before it. -/
structure Placed where
  value : Json
  start : Nat
deriving Repr

namespace Placed

/-- The number of bytes up to the end of the part. -/
def stop (p : Placed) : Nat := p.start + p.value.width

/-- The items of a list whose first one starts here. -/
def items (start : Nat) : List Json → List Placed
  | [] => []
  | value :: rest => ⟨value, start⟩ :: items (start + value.width + 1) rest

/-- The members of an object whose first name starts here. -/
def members (start : Nat) : List (String × Json) → List (String × Placed)
  | [] => []
  | (name, value) :: rest =>
    let here := start + (Json.text name).width + 1
    (name, ⟨value, here⟩) :: members (here + value.width + 1) rest

end Placed

abbrev Check := Placed → Option Misfit

/-- The refusal of a part whose type is wrong. -/
def refused (expected : String) : Check := fun p =>
  some ⟨.wrongType p.value expected,
    match p.value with
    | array _ | object _ => p.start
    | _ => p.stop⟩

def textCheck : Check := fun p =>
  match p.value with
  | text _ => none
  | _ => refused "a string" p

def boolCheck : Check := fun p =>
  match p.value with
  | bool _ => none
  | _ => refused "a boolean" p

/-- A whole number of so many bits, one of them for the sign. -/
def intCheck (bits : Nat) : Check := fun p =>
  let expected := "i" ++ Text.decimal bits
  let bound : Int := Nat.pow 2 (bits - 1)
  match p.value with
  | int n =>
    if -bound ≤ n ∧ n < bound then none
    else some ⟨.outOfRange n expected, p.stop⟩
  | _ => refused expected p

def optionalCheck (check : Check) : Check := fun p =>
  match p.value with
  | null => none
  | _ => check p

def listCheck (check : Check) : Check := fun p =>
  match p.value with
  | array values => (Placed.items (p.start + 1) values).findSome? check
  | _ => refused "a sequence" p

def mapCheck (check : Check) : Check := fun p =>
  match p.value with
  | object entries => (Placed.members (p.start + 1) entries).findSome? fun entry => check entry.2
  | _ => refused "a map" p

structure FieldCheck where
  name : String
  needed : Bool
  check : Check

/-- The misfit that a reader comes upon first. -/
def earlier : Option Misfit → Option Misfit → Option Misfit
  | some a, some b => if b.column < a.column then some b else some a
  | none, b => b
  | a, none => a

/-- The first misfit among the members of an object that ends at `stop`. -/
def membersMisfit (stop : Nat) (entries : List (String × Placed)) :
    List FieldCheck → Option Misfit
  | [] => none
  | field :: rest =>
    let own := match entries.lookup field.name with
      | some value => field.check value
      | none => if field.needed then some ⟨.missing field.name, stop⟩ else none
    earlier own (membersMisfit stop entries rest)

/-- An object with these fields, and possibly others. -/
def objectCheck (expected : String) (fields : List FieldCheck) : Check := fun p =>
  match p.value with
  | object entries => membersMisfit p.stop (Placed.members (p.start + 1) entries) fields
  | array [] => some ⟨.wrongType p.value expected, p.stop⟩
  | array _ => some ⟨.wrongType p.value expected, p.start + 1⟩
  | _ => refused expected p

/-- The first misfit of a list that ends at `stop` and gives fields by their order; `length` of
them have been read. -/
def itemsMisfit (expected : String) (stop length : Nat) :
    List FieldCheck → List Placed → Option Misfit
  | [], [] => none
  | [], extra :: _ => some ⟨.surplus, extra.start + 1⟩
  | field :: fields, [] =>
    if field.needed then some ⟨.tooShort length expected, stop⟩
    else itemsMisfit expected stop (length + 1) fields []
  | field :: fields, value :: values =>
    match field.check value with
    | some misfit => some misfit
    | none => itemsMisfit expected stop (length + 1) fields values

/-- An object with these fields, or the list of the fields in their order. -/
def recordCheck (name : String) (fields : List FieldCheck) : Check := fun p =>
  let expected := "struct " ++ name
  match p.value with
  | object _ => objectCheck expected fields p
  | array values =>
    itemsMisfit (expected ++ " with " ++ Text.decimal fields.length ++ " elements") p.stop 0 fields
      (Placed.items (p.start + 1) values)
  | _ => refused expected p

/-- The misfit of a value that is all of a text. -/
def misfit? (check : Check) (j : Json) : Option Misfit := check ⟨j, 0⟩

end NodeGroups.Json
