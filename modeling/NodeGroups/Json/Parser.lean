import NodeGroups.Json.Token

/-!
# Reading JSON

A text is scanned into tokens and the tokens are read as one value. The readers take a
budget of steps, each of which uses up a token at the latest on its second turn, so twice the
number of tokens is always enough and running out means that the text is no JSON.
-/
namespace NodeGroups.Json

mutual

def readValue : Nat → List Token → Option (Json × List Token)
  | 0, _ => none
  | _ + 1, .null :: rest => some (.null, rest)
  | _ + 1, .bool b :: rest => some (.bool b, rest)
  | _ + 1, .int n :: rest => some (.int n, rest)
  | _ + 1, .binary x :: rest => some (.binary x, rest)
  | _ + 1, .text s :: rest => some (.text s, rest)
  | _ + 1, .arrayOpen :: .arrayClose :: rest => some (.array [], rest)
  | budget + 1, .arrayOpen :: rest => do
    let (items, rest) ← readItems budget rest
    return (.array items, rest)
  | _ + 1, .objectOpen :: .objectClose :: rest => some (.object [], rest)
  | budget + 1, .objectOpen :: rest => do
    let (members, rest) ← readMembers budget rest
    return (.object members, rest)
  | _ + 1, _ => none

/-- One item or more, up to and with the closing bracket. -/
def readItems : Nat → List Token → Option (List Json × List Token)
  | 0, _ => none
  | budget + 1, ts => do
    match ← readValue budget ts with
    | (item, .comma :: rest) =>
      let (items, rest) ← readItems budget rest
      return (item :: items, rest)
    | (item, .arrayClose :: rest) => return ([item], rest)
    | _ => none

/-- One member or more, up to and with the closing brace. -/
def readMembers : Nat → List Token → Option (List (String × Json) × List Token)
  | budget + 1, .text name :: .colon :: ts => do
    match ← readValue budget ts with
    | (value, .comma :: rest) =>
      let (members, rest) ← readMembers budget rest
      return ((name, value) :: members, rest)
    | (value, .objectClose :: rest) => return ([(name, value)], rest)
    | _ => none
  | _, _ => none

end

/-- The one value that all the tokens make up. -/
def ofTokens? (ts : List Token) : Option Json :=
  match readValue (2 * ts.length + 1) ts with
  | some (j, []) => some j
  | _ => none

def parse? (s : String) : Option Json := (scan s.toList).bind ofTokens?

end NodeGroups.Json
