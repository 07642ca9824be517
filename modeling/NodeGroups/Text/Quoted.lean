import NodeGroups.Text.Hidden

/-!
# Quoted texts

Messages show a text they are about in double quotes: a quote and a backslash after a
backslash, four control characters by letter, every other hidden character by its number in
braces, and all else as it is.
-/
namespace NodeGroups.Text

def escaped (c : Char) : List Char :=
  if c = '"' then ['\\', '"']
  else if c = '\\' then ['\\', '\\']
  else if c = '\x00' then ['\\', '0']
  else if c = '\t' then ['\\', 't']
  else if c = '\r' then ['\\', 'r']
  else if c = '\n' then ['\\', 'n']
  else if ' ' ≤ c ∧ c ≤ '~' then [c]
  else if isHidden c then
    ['\\', 'u', '\x7b'] ++ Nat.toDigits 16 c.toNat ++ ['\x7d']
  else [c]

def quoted (s : String) : String :=
  String.ofList ('"' :: s.toList.flatMap escaped ++ ['"'])

end NodeGroups.Text
