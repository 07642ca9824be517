/-!
# URIs

A URI is a scheme with an authority, and a path with a query; or an authority alone, or a path
alone. The scheme is told by the colon and two slashes after it, the path begins at the first
slash, the query after the first question mark, and what follows a hash is dropped unread. Each
part has its own set of characters. Nothing is decoded, and the parts are kept as they were
written but for the case of the two schemes of the web.
-/
namespace NodeGroups

/-- Why a text is no URI. -/
inductive UriFault where
  | empty
  | tooLong
  | schemeTooLong
  | character
  | authority
  | format
deriving DecidableEq, Repr

def UriFault.message : UriFault → String
  | .empty => "empty string"
  | .tooLong => "uri too long"
  | .schemeTooLong => "scheme too long"
  | .character => "invalid uri character"
  | .authority => "invalid authority"
  | .format => "invalid format"

/-- An authority or path that is not there is empty. -/
structure Uri where
  scheme : Option String
  authority : String
  path : String
  query : Option String
deriving DecidableEq, Repr

namespace Uri

def isWord (c : Char) : Bool := c.isAlpha || c.isDigit || c == '-' || c == '.' || c == '~'

def isSchemeChar (c : Char) : Bool := isWord c || c == '+'

def isAuthorityChar (c : Char) : Bool := isWord c || "!$&'()*+,:;=@[]_".toList.contains c

def isForeign (c : Char) : Bool := '\x7f' ≤ c

def isPathChar (c : Char) : Bool :=
  isForeign c || isWord c || "!$%&'()*+,/:;=@[\\]^_|\"\x7b\x7d".toList.contains c

/-- All printable characters but the double quote and the angle brackets; a hash has ended the
query by then. -/
def isQueryChar (c : Char) : Bool :=
  isForeign c || ('!' ≤ c && c ≤ '~' && c != '"' && c != '<' && c != '>')

/-- The rest of a text that begins with `start`, which is in lower case; the text may have
ASCII letters of either case. -/
def afterFolded? : List Char → List Char → Option (List Char)
  | [], cs => some cs
  | _ :: _, [] => none
  | s :: start, c :: cs => if c.toLower = s then afterFolded? start cs else none

def longestScheme : Nat := 64

/-- The scheme and what follows it, or the whole text if it has none. -/
def splitScheme (cs : List Char) : Except UriFault (Option (List Char) × List Char) :=
  match afterFolded? "http://".toList cs, afterFolded? "https://".toList cs with
  | some rest, _ => .ok (some "http".toList, rest)
  | _, some rest => .ok (some "https".toList, rest)
  | none, none =>
    let name := cs.takeWhile isSchemeChar
    match cs.dropWhile isSchemeChar with
    | ':' :: '/' :: '/' :: rest =>
      if name = [] ∧ rest = [] then .ok (none, cs)
      else if longestScheme < name.length then .error .schemeTooLong
      else .ok (some name, rest)
    | _ => .ok (none, cs)

/-- What has been seen of an authority. Colons and percent signs are forgotten at an at sign,
where the user ends, and at the bracket that closes an address. -/
structure AuthorityScan where
  colons : Nat
  percent : Bool
  opened : Bool
  closed : Bool
deriving DecidableEq, Repr

namespace AuthorityScan

def start : AuthorityScan := ⟨0, false, false, false⟩

def mostColons : Nat := 8

def step (s : AuthorityScan) (c : Char) : Except UriFault AuthorityScan :=
  if c = ':' then
    if s.colons < mostColons then .ok { s with colons := s.colons + 1 } else .error .authority
  else if c = '[' then
    if s.percent ∨ s.opened then .error .authority else .ok { s with opened := true }
  else if c = ']' then
    if !s.opened ∨ s.closed then .error .authority
    else .ok { s with closed := true, colons := 0, percent := false }
  else if c = '@' then .ok { s with colons := 0, percent := false }
  else if c = '%' then .ok { s with percent := true }
  else if isAuthorityChar c then .ok s
  else .error .character

def run (s : AuthorityScan) : List Char → Except UriFault AuthorityScan
  | [] => .ok s
  | c :: rest =>
    match s.step c with
    | .error fault => .error fault
    | .ok next => next.run rest

/-- An address that was opened is closed, and at most one colon and no percent sign are left. -/
def isComplete (s : AuthorityScan) : Bool :=
  s.opened == s.closed && s.colons ≤ 1 && !s.percent

end AuthorityScan

def endsAuthority (c : Char) : Bool := c == '/' || c == '?' || c == '#'

/-- The authority at the beginning of a text, possibly empty, and the rest. -/
def splitAuthority (cs : List Char) : Except UriFault (List Char × List Char) :=
  let authority := cs.takeWhile fun c => !endsAuthority c
  match AuthorityScan.start.run authority with
  | .error fault => .error fault
  | .ok scan =>
    if scan.isComplete ∧ authority.getLast? ≠ some '@' then
      .ok (authority, cs.dropWhile fun c => !endsAuthority c)
    else .error .authority

/-- A path and the query after it. -/
def splitPath (cs : List Char) : Except UriFault (List Char × Option (List Char)) :=
  let path := cs.takeWhile fun c => c != '?' && c != '#'
  if !path.all isPathChar then .error .character
  else match cs.dropWhile fun c => c != '?' && c != '#' with
    | '?' :: rest =>
      let query := rest.takeWhile fun c => c != '#'
      if query.all isQueryChar then .ok (path, some query) else .error .character
    | _ => .ok (path, none)

def withPath (scheme : Option (List Char)) (authority cs : List Char) : Except UriFault Uri :=
  (splitPath cs).map fun parts =>
    ⟨scheme.map String.ofList, String.ofList authority, String.ofList parts.1,
      parts.2.map String.ofList⟩

def ofAuthority (authority : List Char) : Uri := ⟨none, String.ofList authority, "", none⟩

/-- The most bytes that a URI may have. -/
def longest : Nat := 65534

/-- A text of one character is an authority if it is neither a slash nor a star, and what ends
an authority is then no character of a URI. -/
def parse (s : String) : Except UriFault Uri :=
  if longest < s.utf8ByteSize then .error .tooLong
  else match s.toList with
    | [] => .error .empty
    | '/' :: rest => withPath none [] ('/' :: rest)
    | ['*'] => .ok ⟨none, "", "*", none⟩
    | cs =>
      match splitScheme cs with
      | .error fault => .error fault
      | .ok (none, _) =>
        match splitAuthority cs with
        | .error fault => .error fault
        | .ok (authority, []) => .ok (ofAuthority authority)
        | .ok (_, _) => if cs.length = 1 then .error .character else .error .format
      | .ok (some _, []) => .error .empty
      | .ok (some scheme, rest) =>
        match splitAuthority rest with
        | .error fault => .error fault
        | .ok ([], _) => .error .format
        | .ok (authority, rest) => withPath (some scheme) authority rest

/-- The path as it is shown: a URI with a scheme has one, a slash at least. -/
def shownPath (u : Uri) : String :=
  if u.path = "" ∧ u.scheme.isSome then "/" else u.path

def text (u : Uri) : String :=
  (match u.scheme with
    | none => ""
    | some scheme => scheme ++ "://") ++
  u.authority ++ u.shownPath ++
  (match u.query with
    | none => ""
    | some query => "?" ++ query)

end Uri
end NodeGroups
