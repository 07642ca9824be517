import NodeGroups.Json.Value

/-!
# Reading the fields of an object

A field is read by its name and every other member of the object is passed over. An optional
field may be absent or null; a field that is there with a value of the wrong type is refused.
Some records may also be given as the array of their fields in order, the last of which may be
left out if they have a value without being given.
-/
namespace NodeGroups.Json

def asText? : Json → Option String
  | text s => some s
  | _ => none

def asBool? : Json → Option Bool
  | bool b => some b
  | _ => none

def asArray? : Json → Option (List Json)
  | array items => some items
  | _ => none

def asObject? : Json → Option (List (String × Json))
  | object members => some members
  | _ => none

/-- An object as it is, and an array as the object that gives the names its values. The array
has values for the `needed` first names at least and for no more than there are. -/
def asRecord? (names : List String) (needed : Nat) : Json → Option Json
  | object members => some (object members)
  | array items =>
    if needed ≤ items.length ∧ items.length ≤ names.length then some (object (names.zip items))
    else none
  | _ => none

/-- An integer without fraction or exponent that fits 32 bits. -/
def asInt32? : Json → Option Int32
  | int n =>
    if Int32.minValue.toInt ≤ n ∧ n ≤ Int32.maxValue.toInt then some (Int32.ofInt n)
    else none
  | _ => none

/-- An integer without fraction or exponent that fits 64 bits. -/
def asInt64? : Json → Option Int64
  | int n =>
    if Int64.minValue.toInt ≤ n ∧ n ≤ Int64.maxValue.toInt then some (Int64.ofInt n)
    else none
  | _ => none

/-- All of the results, if there is one for each element. -/
def every {α β : Type} (read : α → Option β) : List α → Option (List β)
  | [] => some []
  | a :: rest =>
    match read a, every read rest with
    | some b, some more => some (b :: more)
    | _, _ => none

/-- An object of texts. -/
def asStringMap? (j : Json) : Option (List (String × String)) :=
  j.asObject?.bind (every fun entry => entry.2.asText?.map fun value => (entry.1, value))

/-- A list of values of one type. -/
def asListOf? {α : Type} (read : Json → Option α) (j : Json) : Option (List α) :=
  j.asArray?.bind (every read)

/-- The field `name`, none when it is absent or null. -/
def optional? {α : Type} (read : Json → Option α) (name : String) (j : Json) :
    Option (Option α) :=
  match j.member? name with
  | none => some none
  | some .null => some none
  | some value => (read value).map some

/-- The field `name`, `fallback` when it is absent; null is a value like any other. -/
def defaulted? {α : Type} (read : Json → Option α) (fallback : α) (name : String) (j : Json) :
    Option α :=
  match j.member? name with
  | none => some fallback
  | some value => read value

/-- The field `name`, which must be there. -/
def required? {α : Type} (read : Json → Option α) (name : String) (j : Json) : Option α :=
  (j.member? name).bind read

/-- A member for a field that may be absent: none then, and no null. -/
def memberOf {α : Type} (write : α → Json) (name : String) :
    Option α → List (String × Json)
  | none => []
  | some value => [(name, write value)]

def ofStringMap (entries : List (String × String)) : Json :=
  object (entries.map fun entry => (entry.1, text entry.2))

end NodeGroups.Json
