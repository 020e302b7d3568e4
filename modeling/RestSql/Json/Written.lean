import RestSql.Text.Numeral

/-!
JSON text as it is written: the members of an object stand in written order, with repetitions, and
numbers and strings are kept as they are spelled. `ofText?` reads the grammar and decides nothing
else; what a text means is the business of `RestSql.Json.Meaning`.
-/

namespace RestSql.Json

open RestSql.Text (isDigit hexValue?)

/-- A number as spelled, in digits. Without a point the fraction is empty. -/
structure Numeral where
  negative : Bool
  whole : List Char
  fraction : List Char
  /-- Whether the exponent is negative, and its digits. -/
  exponent : Option (Bool × List Char)
deriving DecidableEq, Repr

inductive Letter
  | char (c : Char)
  /-- An escape by a UTF-16 code unit. -/
  | unit (code : Nat)
deriving DecidableEq, Repr

inductive Written
  | null
  | bool (b : Bool)
  | number (n : Numeral)
  | string (letters : List Letter)
  | array (items : List Written)
  | object (members : List (List Letter × Written))
deriving Repr, Inhabited

namespace Written

def isBlank (c : Char) : Bool := c == ' ' || c == '\t' || c == '\n' || c == '\r'

def skipBlank (cs : List Char) : List Char := cs.dropWhile isBlank

def shortEscape? (c : Char) : Option Char :=
  if c = '\x22' || c = '\\' || c = '/' then some c
  else if c = 'b' then some '\x08'
  else if c = 'f' then some '\x0c'
  else if c = 'n' then some '\n'
  else if c = 'r' then some '\r'
  else if c = 't' then some '\t'
  else none

/-- What follows an opening quote: the letters up to the closing one, and the rest. -/
def letters? : List Char → Option (List Letter × List Char)
  | [] => none
  | '\\' :: 'u' :: a :: b :: c :: d :: cs =>
    match hexValue? [a, b, c, d] with
    | some n => (letters? cs).map fun p => (.unit n :: p.1, p.2)
    | none => none
  | '\\' :: e :: cs =>
    match shortEscape? e with
    | some c => (letters? cs).map fun p => (.char c :: p.1, p.2)
    | none => none
  | c :: cs =>
    if c = '\x22' then some ([], cs)
    else if c = '\\' || c < ' ' then none
    else (letters? cs).map fun p => (.char c :: p.1, p.2)

def exponent? (cs : List Char) : Option (Option (Bool × List Char) × List Char) :=
  let mark := match cs with
    | c :: rest => if c = 'e' || c = 'E' then some rest else none
    | [] => none
  match mark with
  | none => some (none, cs)
  | some rest =>
    let negative := rest.head? = some '-'
    let rest := if rest.head? = some '-' || rest.head? = some '+' then rest.drop 1 else rest
    let digits := rest.takeWhile isDigit
    if digits.isEmpty then none else some (some (negative, digits), rest.dropWhile isDigit)

def fraction? (cs : List Char) : Option (List Char × List Char) :=
  if cs.head? = some '.' then
    let digits := (cs.drop 1).takeWhile isDigit
    if digits.isEmpty then none else some (digits, (cs.drop 1).dropWhile isDigit)
  else some ([], cs)

/-- A zero is not followed by another digit of the whole part. -/
def numeral? (cs : List Char) : Option (Numeral × List Char) :=
  let negative := cs.head? = some '-'
  let cs := if negative then cs.drop 1 else cs
  let whole := cs.takeWhile isDigit
  if whole.isEmpty || (whole.head? = some '0' && 1 < whole.length) then none
  else do
    let (fraction, cs) ← fraction? (cs.dropWhile isDigit)
    let (exponent, cs) ← exponent? cs
    return (⟨negative, whole, fraction, exponent⟩, cs)

mutual

/-- One value after blanks, with what is left; the fuel bounds the calls. -/
def value? : Nat → List Char → Option (Written × List Char)
  | 0, _ => none
  | fuel + 1, cs =>
    match skipBlank cs with
    | 'n' :: 'u' :: 'l' :: 'l' :: rest => some (.null, rest)
    | 't' :: 'r' :: 'u' :: 'e' :: rest => some (.bool true, rest)
    | 'f' :: 'a' :: 'l' :: 's' :: 'e' :: rest => some (.bool false, rest)
    | '\x22' :: rest => (letters? rest).map fun p => (.string p.1, p.2)
    | '[' :: rest =>
      match skipBlank rest with
      | ']' :: rest => some (.array [], rest)
      | _ => (items? fuel rest).map fun p => (.array p.1, p.2)
    | '{' :: rest =>
      match skipBlank rest with
      | '}' :: rest => some (.object [], rest)
      | _ => (members? fuel rest).map fun p => (.object p.1, p.2)
    | rest => (numeral? rest).map fun p => (.number p.1, p.2)

def items? : Nat → List Char → Option (List Written × List Char)
  | 0, _ => none
  | fuel + 1, cs =>
    match value? fuel cs with
    | none => none
    | some (v, rest) =>
      match skipBlank rest with
      | ',' :: rest => (items? fuel rest).map fun p => (v :: p.1, p.2)
      | ']' :: rest => some ([v], rest)
      | _ => none

def members? : Nat → List Char → Option (List (List Letter × Written) × List Char)
  | 0, _ => none
  | fuel + 1, cs =>
    match skipBlank cs with
    | '\x22' :: rest =>
      match letters? rest with
      | none => none
      | some (name, rest) =>
        match skipBlank rest with
        | ':' :: rest =>
          match value? fuel rest with
          | none => none
          | some (v, rest) =>
            match skipBlank rest with
            | ',' :: rest => (members? fuel rest).map fun p => ((name, v) :: p.1, p.2)
            | '}' :: rest => some ([(name, v)], rest)
            | _ => none
        | _ => none
    | _ => none

end

def ofText? (s : String) : Option Written :=
  let cs := s.toList
  match value? (2 * cs.length + 2) cs with
  | some (w, rest) => if (skipBlank rest).isEmpty then some w else none
  | none => none

end Written

end RestSql.Json
