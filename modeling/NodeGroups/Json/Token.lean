import NodeGroups.Json.Value

/-!
# JSON tokens

A value is a sequence of tokens whatever its layout: `Json.tokens` lists them, `Token.spell`
writes one, and `Token.scan` reads a text into tokens, skipping blanks between them. The
scanner takes one character at a time and carries what it has read of an unfinished token.
-/
namespace NodeGroups.Json

inductive Token where
  | arrayOpen
  | arrayClose
  | objectOpen
  | objectClose
  | comma
  | colon
  | null
  | bool (value : Bool)
  | int (value : Int)
  | binary (value : Binary64)
  | text (value : String)
deriving DecidableEq, Repr

mutual

def tokens : Json → List Token
  | .null => [.null]
  | .bool b => [.bool b]
  | .int n => [.int n]
  | .binary x => [.binary x]
  | .text s => [.text s]
  | .array items => .arrayOpen :: itemTokens items ++ [.arrayClose]
  | .object members => .objectOpen :: memberTokens members ++ [.objectClose]

def itemTokens : List Json → List Token
  | [] => []
  | [item] => tokens item
  | item :: rest => tokens item ++ .comma :: itemTokens rest

def memberTokens : List (String × Json) → List Token
  | [] => []
  | [(name, value)] => .text name :: .colon :: tokens value
  | (name, value) :: rest => .text name :: .colon :: tokens value ++ .comma :: memberTokens rest

end

/-- The four lower-case hexadecimal digits of a control character. -/
def controlEscape (c : Char) : List Char :=
  let digits := Nat.toDigits 16 c.toNat
  ['\\', 'u'] ++ List.replicate (4 - digits.length) '0' ++ digits

def escapedChar (c : Char) : List Char :=
  if c = '"' then ['\\', '"']
  else if c = '\\' then ['\\', '\\']
  else if c = '\x08' then ['\\', 'b']
  else if c = '\x0c' then ['\\', 'f']
  else if c = '\n' then ['\\', 'n']
  else if c = '\r' then ['\\', 'r']
  else if c = '\t' then ['\\', 't']
  else if c < ' ' then controlEscape c
  else [c]

/-- A text between quotes. All characters from the space on stand for themselves, but for
the quote and the backslash. -/
def spellText (s : String) : List Char :=
  '"' :: s.toList.flatMap escapedChar ++ ['"']

def Token.spell : Token → List Char
  | .arrayOpen => ['[']
  | .arrayClose => [']']
  | .objectOpen => ['\x7b']
  | .objectClose => ['\x7d']
  | .comma => [',']
  | .colon => [':']
  | .null => "null".toList
  | .bool true => "true".toList
  | .bool false => "false".toList
  | .int n => Text.intDigits n
  | .binary x => x.spell
  | .text s => spellText s

def Token.ofNumber : Number → Token
  | .int n => .int n
  | .binary x => .binary x

/-- The token that a run of letters, digits, signs and points spells. -/
def wordToken? (word : List Char) : Option Token :=
  if word = "null".toList then some .null
  else if word = "true".toList then some (.bool true)
  else if word = "false".toList then some (.bool false)
  else (Number.ofChars? word).map Token.ofNumber

def punctuation? (c : Char) : Option Token :=
  if c = '[' then some .arrayOpen
  else if c = ']' then some .arrayClose
  else if c = '\x7b' then some .objectOpen
  else if c = '\x7d' then some .objectClose
  else if c = ',' then some .comma
  else if c = ':' then some .colon
  else none

def isBlank (c : Char) : Bool := c = ' ' || c = '\n' || c = '\r' || c = '\t'

/-- The character after a backslash that stands for one character. -/
def unescaped? (c : Char) : Option Char :=
  if c = '"' then some '"'
  else if c = '\\' then some '\\'
  else if c = '/' then some '/'
  else if c = 'b' then some '\x08'
  else if c = 'f' then some '\x0c'
  else if c = 'n' then some '\n'
  else if c = 'r' then some '\r'
  else if c = 't' then some '\t'
  else none

def hexDigit? (c : Char) : Option Nat :=
  if '0' ≤ c ∧ c ≤ '9' then some (c.toNat - '0'.toNat)
  else if 'a' ≤ c ∧ c ≤ 'f' then some (c.toNat - 'a'.toNat + 10)
  else if 'A' ≤ c ∧ c ≤ 'F' then some (c.toNat - 'A'.toNat + 10)
  else none

/-- What the scanner is in the middle of. Characters read so far are in reverse. -/
inductive Unfinished where
  | nothing
  | word (reversed : List Char)
  | quotation (reversed : List Char)
  | escape (reversed : List Char)
  /-- Inside a numeric escape with `left` digits to come. -/
  | code (reversed : List Char) (left value : Nat)
  /-- After the first half of a surrogate pair, before the backslash of the second. -/
  | half (reversed : List Char) (high : Nat)
  | halfMark (reversed : List Char) (high : Nat)
  | halfCode (reversed : List Char) (high left value : Nat)

/-- Where a completed numeric escape leads: a character, or the wait for the second half. -/
def afterCode (reversed : List Char) (value : Nat) : Option Unfinished :=
  if 0xD800 ≤ value ∧ value < 0xDC00 then some (.half reversed value)
  else if 0xDC00 ≤ value ∧ value < 0xE000 then none
  else some (.quotation (Char.ofNat value :: reversed))

def afterHalf (reversed : List Char) (high low : Nat) : Option Unfinished :=
  if 0xDC00 ≤ low ∧ low < 0xE000 then
    some (.quotation (Char.ofNat (0x10000 + (high - 0xD800) * 0x400 + (low - 0xDC00)) :: reversed))
  else none

/-- One character outside quotations: the tokens it completes and what it leaves open. -/
def openStep (c : Char) : Option (List Token × Unfinished) :=
  if isBlank c then some ([], .nothing)
  else if c = '"' then some ([], .quotation [])
  else match punctuation? c with
    | some t => some ([t], .nothing)
    | none => some ([], .word [c])

def step (c : Char) : Unfinished → Option (List Token × Unfinished)
  | .nothing => openStep c
  | .word reversed =>
    if isBlank c ∨ c = '"' ∨ (punctuation? c).isSome then do
      let finished ← wordToken? reversed.reverse
      let (more, next) ← openStep c
      return (finished :: more, next)
    else some ([], .word (c :: reversed))
  | .quotation reversed =>
    if c = '"' then some ([.text (String.ofList reversed.reverse)], .nothing)
    else if c = '\\' then some ([], .escape reversed)
    else if c < ' ' then none
    else some ([], .quotation (c :: reversed))
  | .escape reversed =>
    if c = 'u' then some ([], .code reversed 4 0)
    else (unescaped? c).map fun d => ([], .quotation (d :: reversed))
  | .code reversed left value => do
    let d ← hexDigit? c
    let value := value * 16 + d
    if left = 1 then
      let next ← afterCode reversed value
      return ([], next)
    else return ([], .code reversed (left - 1) value)
  | .half reversed high => if c = '\\' then some ([], .halfMark reversed high) else none
  | .halfMark reversed high => if c = 'u' then some ([], .halfCode reversed high 4 0) else none
  | .halfCode reversed high left value => do
    let d ← hexDigit? c
    let value := value * 16 + d
    if left = 1 then
      let next ← afterHalf reversed high value
      return ([], next)
    else return ([], .halfCode reversed high (left - 1) value)

/-- The tokens of the characters to come, after what is unfinished. -/
def scanFrom : Unfinished → List Char → Option (List Token)
  | .nothing, [] => some []
  | .word reversed, [] => (wordToken? reversed.reverse).map fun t => [t]
  | _, [] => none
  | state, c :: rest => do
    let (done, next) ← step c state
    let more ← scanFrom next rest
    return done ++ more

def scan (cs : List Char) : Option (List Token) := scanFrom .nothing cs

end NodeGroups.Json
