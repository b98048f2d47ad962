/-!
# URIs

Splits a URI into its scheme, its authority and its path. A text without a scheme is an authority
alone, or a path. Queries and fragments are checked and left out.
-/

namespace ClusterScaling

/-- The scheme of a URI. -/
inductive Scheme where
  | http
  | https
  | other
deriving DecidableEq, Repr

/-- The parts of a URI. -/
structure Uri where
  scheme : Option Scheme
  authority : List Char
  path : List Char
deriving DecidableEq, Repr

namespace Uri

/-- The greatest length of a URI in bytes. -/
def lengthLimit : Nat := 65534

/-! ## Scheme -/

/-- Whether the character may stand in a scheme. -/
def isSchemeChar (c : Char) : Bool :=
  c.isAlphanum || c == '+' || c == '-' || c == '.' || c == '~'

/-- The greatest length of a scheme. -/
def schemeLimit : Nat := 64

/-- The text after `start`, whose letters may be in either case. -/
def afterStart? (start : String) (cs : List Char) : Option (List Char) :=
  let n := start.toList.length
  if (cs.take n).map Char.toLower = start.toList then some (cs.drop n) else none

/-- Splits off the scheme and its mark `://`. A text without the mark has none, and a scheme that
is too long is refused. -/
def splitScheme? (cs : List Char) : Option (Option Scheme × List Char) :=
  match afterStart? "http://" cs with
  | some r => some (some .http, r)
  | none =>
    match afterStart? "https://" cs with
    | some r => some (some .https, r)
    | none =>
      let name := cs.takeWhile isSchemeChar
      match cs.dropWhile isSchemeChar with
      | ':' :: '/' :: '/' :: r =>
        if schemeLimit < name.length then none else some (some .other, r)
      | _ => some (none, cs)

/-! ## Authority -/

/-- Whether the character ends an authority. -/
def endsAuthority (c : Char) : Bool := c == '/' || c == '?' || c == '#'

/-- Whether the character may stand in an authority, a percent sign aside. -/
def isAuthorityChar (c : Char) : Bool :=
  c.isAlphanum || "!$&'()*+,-.:;=@[]_~".toList.contains c

/-- What was seen of an authority. -/
structure Scan where
  /-- The colons since the last `@` or `]`. -/
  colons : Nat
  /-- Whether there was a percent sign since the last `@` or `]`. -/
  percent : Bool
  opened : Bool
  closed : Bool
  /-- Whether the last character was an `@`. -/
  atEnd : Bool
deriving DecidableEq

/-- The greatest number of colons in a row of an authority: those of an address in brackets. -/
def colonLimit : Nat := 8

/-- Takes one character of an authority. -/
def Scan.step (s : Scan) (c : Char) : Option Scan :=
  let s := { s with atEnd := false }
  if c = ':' then
    if colonLimit ≤ s.colons then none else some { s with colons := s.colons + 1 }
  else if c = '[' then
    if s.percent || s.opened then none else some { s with opened := true }
  else if c = ']' then
    if !s.opened || s.closed then none
    else some { s with closed := true, colons := 0, percent := false }
  else if c = '@' then some { s with colons := 0, percent := false, atEnd := true }
  else if c = '%' then some { s with percent := true }
  else if isAuthorityChar c then some s
  else none

/-- Whether the authority is complete here. -/
def Scan.accepts (s : Scan) : Bool :=
  s.opened == s.closed && s.colons ≤ 1 && !s.atEnd && !s.percent

/-- Takes the characters of an authority. -/
def Scan.run (s : Scan) : List Char → Option Scan
  | [] => some s
  | c :: cs => (s.step c).bind fun s => s.run cs

/-- Whether the text is an authority, which may be empty. -/
def isAuthority (cs : List Char) : Bool :=
  (Scan.run ⟨0, false, false, false, false⟩ cs).any Scan.accepts

/-- Splits off the text up to the character that ends an authority. -/
def splitAuthority (cs : List Char) : List Char × List Char :=
  (cs.takeWhile fun c => !endsAuthority c, cs.dropWhile fun c => !endsAuthority c)

/-! ## Path and query -/

/-- Whether the character may stand in a path. -/
def isPathChar (c : Char) : Bool :=
  let n := c.toNat
  0x21 ≤ n && c != '#' && c != '<' && c != '>' && c != '?' && c != '`'

/-- Whether the character may stand in a query. -/
def isQueryChar (c : Char) : Bool :=
  let n := c.toNat
  0x21 ≤ n && c != '"' && c != '#' && c != '<' && c != '>'

/-- The path of a path with a query and a fragment. After the mark of a fragment anything goes. -/
def path? (cs : List Char) : Option (List Char) :=
  let path := cs.takeWhile isPathChar
  match cs.dropWhile isPathChar with
  | [] => some path
  | '#' :: _ => some path
  | '?' :: r =>
    match r.dropWhile isQueryChar with
    | [] => some path
    | '#' :: _ => some path
    | _ => none
  | _ => none

/-! ## URIs -/

/-- Reads a URI. -/
def ofChars? (cs : List Char) : Option Uri :=
  if lengthLimit < (String.ofList cs).utf8ByteSize then none
  else match cs with
    | [] => none
    | ['*'] => some ⟨none, [], ['*']⟩
    | '/' :: _ => (path? cs).map fun p => ⟨none, [], p⟩
    | cs =>
      match splitScheme? cs with
      | none => none
      | some (scheme, rest) =>
        let (authority, rest) := splitAuthority rest
        if !isAuthority authority then none
        else if scheme.isNone then
          if rest.isEmpty then some ⟨none, authority, []⟩ else none
        else if authority.isEmpty then none
        else (path? rest).map fun p => ⟨scheme, authority, p⟩

/-! ## Host and port -/

/-- The text after the last `c`, or the whole text if there is none. -/
def afterLast (c : Char) (cs : List Char) : List Char := (cs.reverse.takeWhile (· != c)).reverse

/-- The text up to and with the first `c`, or the whole text if there is none. -/
def throughFirst (c : Char) (cs : List Char) : List Char :=
  cs.takeWhile (· != c) ++ (cs.dropWhile (· != c)).take 1

/-- The host: what follows the user's name, up to the port. An address in brackets keeps them. -/
def host (u : Uri) : List Char :=
  match afterLast '@' u.authority with
  | '[' :: r => throughFirst ']' ('[' :: r)
  | r => r.takeWhile (· != ':')

end Uri

end ClusterScaling
