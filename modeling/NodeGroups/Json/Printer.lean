import NodeGroups.Json.Token

/-!
# Writing JSON

Two layouts of the same tokens: without any blanks, and with each item and member on a line
of its own, two spaces deeper than the bracket it stands in, a blank after each colon, and
empty brackets closed at once.
-/
namespace NodeGroups.Json

def compact (j : Json) : String :=
  String.ofList (j.tokens.flatMap Token.spell)

def newline (depth : Nat) : List Char := '\n' :: List.replicate (2 * depth) ' '

mutual

def layout (depth : Nat) : Json → List Char
  | .array [] => ['[', ']']
  | .array items => '[' :: layoutItems (depth + 1) items ++ newline depth ++ [']']
  | .object [] => ['\x7b', '\x7d']
  | .object members => '\x7b' :: layoutMembers (depth + 1) members ++ newline depth ++ ['\x7d']
  | .null => Token.null.spell
  | .bool b => (Token.bool b).spell
  | .int n => (Token.int n).spell
  | .binary x => (Token.binary x).spell
  | .text s => (Token.text s).spell

def layoutItems (depth : Nat) : List Json → List Char
  | [] => []
  | [item] => newline depth ++ layout depth item
  | item :: rest => newline depth ++ layout depth item ++ ',' :: layoutItems depth rest

def layoutMembers (depth : Nat) : List (String × Json) → List Char
  | [] => []
  | [(name, value)] => newline depth ++ spellText name ++ ':' :: ' ' :: layout depth value
  | (name, value) :: rest =>
    newline depth ++ spellText name ++ ':' :: ' ' :: layout depth value ++
      ',' :: layoutMembers depth rest

end

def indented (j : Json) : String := String.ofList (layout 0 j)

end NodeGroups.Json
