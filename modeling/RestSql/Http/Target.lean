import RestSql.Text.Split

/-!
What a request asks for. A target is a path with perhaps a query, the same behind a scheme and an
authority, an authority alone, or `*`; a fragment is cut off. Texts of no such form are no targets.
-/

namespace RestSql.Http

structure Target where
  /-- Empty when the target is an authority alone. -/
  path : String
  query : String
deriving DecidableEq, Repr

namespace Target

def isLetterOrDigit (c : Char) : Bool :=
  ('0' ≤ c && c ≤ '9') || ('A' ≤ c && c ≤ 'Z') || ('a' ≤ c && c ≤ 'z')

/-! ## Path and query -/

/-- Characters beyond ASCII may stand in paths and queries as they are. -/
def isPathChar (c : Char) : Bool :=
  c == '!' || c == '\x22' || ('$' ≤ c && c ≤ ';') || c == '=' || ('@' ≤ c && c ≤ '_') ||
    'a' ≤ c

def isQueryChar (c : Char) : Bool :=
  c == '!' || ('$' ≤ c && c ≤ ';') || c == '=' || '?' ≤ c

def isPathEnd (c : Char) : Bool := c == '?' || c == '#'

/-- An empty path stands for the root. -/
def ofPathAndQuery? (cs : List Char) : Option Target :=
  let path := cs.takeWhile (!isPathEnd ·)
  let query := match cs.dropWhile (!isPathEnd ·) with
    | '?' :: qs => qs.takeWhile (· ≠ '#')
    | _ => []
  if path.all isPathChar && query.all isQueryChar then
    some ⟨if path.isEmpty then "/" else String.ofList path, String.ofList query⟩
  else none

/-! ## Scheme and authority -/

def isSchemeChar (c : Char) : Bool := isLetterOrDigit c || "+-.~".toList.contains c

/-- What follows the scheme, if there is one; a scheme of more than 64 characters is none that can
be served. -/
def afterScheme? (cs : List Char) : Option (Option (List Char)) :=
  match cs.dropWhile isSchemeChar with
  | ':' :: '/' :: '/' :: rest =>
    if (cs.takeWhile isSchemeChar).length ≤ 64 then some (some rest) else none
  | _ => some none

def isAuthorityChar (c : Char) : Bool :=
  isLetterOrDigit c || "!$&'()*+,-.;=_~%:@[]".toList.contains c

/-- What has been seen of an authority: colons and percent signs since the user's part or an address
in brackets ended, and those brackets. -/
structure AuthorityScan where
  colons : Nat
  opened : Bool
  closed : Bool
  percent : Bool
deriving DecidableEq, Repr

namespace AuthorityScan

def start : AuthorityScan := ⟨0, false, false, false⟩

/-- Up to eight colons stand in an address, and one more before the port. -/
def step (s : AuthorityScan) (c : Char) : Option AuthorityScan :=
  if !isAuthorityChar c then none
  else if c = ':' then if s.colons < 8 then some { s with colons := s.colons + 1 } else none
  else if c = '[' then if s.percent || s.opened then none else some { s with opened := true }
  else if c = ']' then
    if !s.opened || s.closed then none
    else some { s with closed := true, colons := 0, percent := false }
  else if c = '@' then some { s with colons := 0, percent := false }
  else if c = '%' then some { s with percent := true }
  else some s

/-- Escapes stand in the user's part only, and one colon at most outside it and the brackets. -/
def isDone (s : AuthorityScan) : Bool := s.opened == s.closed && s.colons ≤ 1 && !s.percent

end AuthorityScan

def isAuthority (cs : List Char) : Bool :=
  (cs.foldlM AuthorityScan.step .start).any (·.isDone) && cs.getLast? != some '@'

def isAuthorityEnd (c : Char) : Bool := c == '/' || isPathEnd c

/-! ## Targets -/

def lengthBound : Nat := 65534

def ofText? (text : String) : Option Target :=
  if lengthBound < text.utf8ByteSize then none
  else
    match text.toList with
    | [] => none
    | ['*'] => some ⟨"*", ""⟩
    | '/' :: cs => ofPathAndQuery? ('/' :: cs)
    | cs =>
      match afterScheme? cs with
      | none => none
      | some none => if isAuthority cs then some ⟨"", ""⟩ else none
      | some (some rest) =>
        let authority := rest.takeWhile (!isAuthorityEnd ·)
        if authority.isEmpty || !isAuthority authority then none
        else ofPathAndQuery? (rest.dropWhile (!isAuthorityEnd ·))

end Target

end RestSql.Http
