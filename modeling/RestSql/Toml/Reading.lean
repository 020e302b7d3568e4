import RestSql.Toml.Token

/-!
TOML keys and values in text: strings of four kinds, arrays, inline tables and tokens. The reader of
a nested value is bounded by fuel, and by the depth of nesting that is allowed.
-/

namespace RestSql.Toml

open RestSql.Text

def isBlank (c : Char) : Bool := c == ' ' || c == '\t'

def skipBlank (cs : List Char) : List Char := cs.dropWhile isBlank

/-- What a comment or a literal may hold: no control character but the tab. -/
def isTextChar (c : Char) : Bool := c == '\t' || (' ' ≤ c && c ≠ '\x7f')

def lineEnd? : List Char → Option (List Char)
  | '\n' :: cs => some cs
  | '\r' :: '\n' :: cs => some cs
  | _ => none

def skipTrivia (inComment : Bool) : List Char → List Char
  | [] => []
  | '\r' :: '\n' :: cs => skipTrivia false cs
  | c :: cs =>
    if c = '\n' then skipTrivia false cs
    else if inComment then (if isTextChar c then skipTrivia true cs else c :: cs)
    else if isBlank c then skipTrivia false cs
    else if c = '#' then skipTrivia true cs
    else c :: cs

/-! ## Strings -/

def codePoint? (cs : List Char) : Option Char :=
  (hexValue? cs).bind fun n => if n.isValidChar then some (Char.ofNat n) else none

def escape? : List Char → Option (Char × List Char)
  | 'b' :: cs => some ('\x08', cs)
  | 't' :: cs => some ('\t', cs)
  | 'n' :: cs => some ('\n', cs)
  | 'f' :: cs => some ('\x0c', cs)
  | 'r' :: cs => some ('\r', cs)
  | '\x22' :: cs => some ('\x22', cs)
  | '\\' :: cs => some ('\\', cs)
  | 'u' :: cs => if cs.length < 4 then none else (codePoint? (cs.take 4)).map (·, cs.drop 4)
  | 'U' :: cs => if cs.length < 8 then none else (codePoint? (cs.take 8)).map (·, cs.drop 8)
  | _ => none

def basicString? : Nat → List Char → Option (List Char × List Char)
  | 0, _ => none
  | _, [] => none
  | fuel + 1, c :: cs =>
    if c = '\x22' then some ([], cs)
    else if c = '\\' then
      (escape? cs).bind fun (e, cs) => (basicString? fuel cs).map fun p => (e :: p.1, p.2)
    else if isTextChar c then (basicString? fuel cs).map fun p => (c :: p.1, p.2)
    else none

def literalString? : List Char → Option (List Char × List Char)
  | [] => none
  | c :: cs =>
    if c = '\x27' then some ([], cs)
    else if isTextChar c then (literalString? cs).map fun p => (c :: p.1, p.2)
    else none

/-- The end of a string over several lines: three quotes close it, and up to two more before them
belong to it. -/
def closing? (quote : Char) (cs : List Char) : Option (List Char × List Char) :=
  let n := (cs.takeWhile (· = quote)).length
  if 3 ≤ n then
    let extra := min (n - 3) 2
    some (List.replicate extra quote, cs.drop (extra + 3))
  else none

/-- The rest of a basic string over several lines. A backslash before a line end takes all blanks
and line ends after it away. -/
def multilineBasic? : Nat → List Char → Option (List Char × List Char)
  | 0, _ => none
  | _, [] => none
  | fuel + 1, c :: cs =>
    match closing? '\x22' (c :: cs), lineEnd? (c :: cs) with
    | some closed, _ => some closed
    | none, some rest => (multilineBasic? fuel rest).map fun p => ('\n' :: p.1, p.2)
    | none, none =>
      if c = '\\' then
        match lineEnd? (skipBlank cs) with
        | some rest => multilineBasic? fuel (skipBlankLines fuel rest)
        | none =>
          (escape? cs).bind fun (e, cs) => (multilineBasic? fuel cs).map fun p => (e :: p.1, p.2)
      else if isTextChar c then (multilineBasic? fuel cs).map fun p => (c :: p.1, p.2)
      else none
where
  /-- What follows blanks and line ends. -/
  skipBlankLines : Nat → List Char → List Char
    | 0, cs => cs
    | fuel + 1, cs =>
      match lineEnd? (skipBlank cs) with
      | some rest => skipBlankLines fuel rest
      | none => skipBlank cs

def multilineLiteral? : Nat → List Char → Option (List Char × List Char)
  | 0, _ => none
  | _, [] => none
  | fuel + 1, c :: cs =>
    match closing? '\x27' (c :: cs), lineEnd? (c :: cs) with
    | some closed, _ => some closed
    | none, some rest => (multilineLiteral? fuel rest).map fun p => ('\n' :: p.1, p.2)
    | none, none =>
      if isTextChar c then (multilineLiteral? fuel cs).map fun p => (c :: p.1, p.2) else none

def afterOpening (cs : List Char) : List Char := (lineEnd? cs).getD cs

def string? (cs : List Char) : Option (List Char × List Char) :=
  match cs with
  | '\x22' :: '\x22' :: '\x22' :: rest => multilineBasic? cs.length (afterOpening rest)
  | '\x27' :: '\x27' :: '\x27' :: rest => multilineLiteral? cs.length (afterOpening rest)
  | '\x22' :: rest => basicString? cs.length rest
  | '\x27' :: rest => literalString? rest
  | _ => none

/-! ## Keys -/

def isBareKeyChar (c : Char) : Bool :=
  isDigit c || ('a' ≤ c && c ≤ 'z') || ('A' ≤ c && c ≤ 'Z') || c == '-' || c == '_'

def simpleKey? (cs : List Char) : Option (String × List Char) :=
  match cs with
  | '\x22' :: rest => (basicString? cs.length rest).map fun p => (String.ofList p.1, p.2)
  | '\x27' :: rest => (literalString? rest).map fun p => (String.ofList p.1, p.2)
  | _ =>
    let name := cs.takeWhile isBareKeyChar
    if name.isEmpty then none else some (String.ofList name, cs.dropWhile isBareKeyChar)

def dottedKey? : Nat → List Char → Option (List String × List Char)
  | 0, _ => none
  | fuel + 1, cs =>
    match simpleKey? (skipBlank cs) with
    | none => none
    | some (k, rest) =>
      match skipBlank rest with
      | '.' :: rest => (dottedKey? fuel rest).map fun p => (k :: p.1, p.2)
      | rest => some ([k], rest)

/-- Values are nested, and keys dotted, less deeply than this. -/
def depthBound : Nat := 80

def key? (cs : List Char) : Option (List String × List Char) :=
  (dottedKey? (cs.length + 1) cs).filter (·.1.length < depthBound)

end RestSql.Toml
