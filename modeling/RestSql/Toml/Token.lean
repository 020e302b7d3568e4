import RestSql.Double.Reading
import RestSql.Text.Numeral
import RestSql.Toml.Value

/-!
Values that are one run of letters, digits and signs: booleans, numbers, dates and times.
Underscores may stand between two digits of a number and nowhere else.
-/

namespace RestSql.Toml

open RestSql.Text

def isTokenChar (c : Char) : Bool :=
  isDigit c || ('a' ≤ c && c ≤ 'z') || ('A' ≤ c && c ≤ 'Z') || c == '_' || c == '+' || c == '-' ||
    c == '.' || c == ':'

def grouped? (digit : Char → Bool) : List Char → Option (List Char)
  | [] => none
  | [c] => if digit c then some [c] else none
  | c :: '_' :: cs => if digit c then (grouped? digit cs).map (c :: ·) else none
  | c :: cs => if digit c then (grouped? digit cs).map (c :: ·) else none

def decimal? (cs : List Char) : Option (List Char) :=
  (grouped? isDigit cs).filter fun ds => ds.length = 1 || ds.head? != some '0'

def signed (cs : List Char) : Bool × List Char :=
  match cs with
  | '-' :: ds => (true, ds)
  | '+' :: ds => (false, ds)
  | ds => (false, ds)

def isRadixDigit (radix : Nat) (c : Char) : Bool := (hexDigit? c).any (· < radix)

/-- A whole number in a radix that its first two characters tell; it has no sign. -/
def radixInteger? (cs : List Char) : Option Int :=
  let digits := match cs with
    | '0' :: 'x' :: ds => some (16, ds)
    | '0' :: 'o' :: ds => some (8, ds)
    | '0' :: 'b' :: ds => some (2, ds)
    | _ => none
  digits.bind fun (radix, ds) =>
    (grouped? (isRadixDigit radix) ds).bind fun ds =>
      let n := ds.foldl (fun n d => radix * n + (hexDigit? d).getD 0) 0
      if n < integerBound then some (n : Int) else none

def integer? (cs : List Char) : Option Int :=
  let (negative, ds) := signed cs
  ((decimal? ds).map fun ds =>
    if negative then -(digitsValue ds : Int) else (digitsValue ds : Int)).filter fun n =>
      -(integerBound : Int) ≤ n && n < (integerBound : Int)

/-- A float has a fraction or an exponent; it does not pass the largest double. -/
def float? (cs : List Char) : Option Double :=
  let (negative, ds) := signed cs
  if ds = ['i', 'n', 'f'] then some (.infinity negative)
  else if ds = ['n', 'a', 'n'] then some .nan
  else
    let isMark := fun c => c == 'e' || c == 'E'
    let mantissa := ds.takeWhile (!isMark ·)
    let whole := mantissa.takeWhile (· ≠ '.')
    let fraction := match mantissa.dropWhile (· ≠ '.') with
      | [] => some []
      | _ :: fs => grouped? isDigit fs
    let exponent : Option Int := match ds.dropWhile (!isMark ·) with
      | [] => some 0
      | _ :: es =>
        let (negative, es) := signed es
        (grouped? isDigit es).map fun es =>
          if negative then -(digitsValue es : Int) else (digitsValue es : Int)
    if mantissa.length = whole.length && mantissa.length = ds.length then none
    else
      match decimal? whole, fraction, exponent with
      | some ws, some fs, some e =>
        let x := Double.ofDecimal negative (digitsValue (ws ++ fs)) (e - fs.length)
        if x = .infinity false then none else some x
      | _, _, _ => none

/-! ## Dates and times -/

def field? (width low high : Nat) (cs : List Char) : Option (Nat × List Char) :=
  match natural? (cs.take width) with
  | some n =>
    if width ≤ cs.length && low ≤ n && n ≤ high then some (n, cs.drop width) else none
  | none => none

def separator? (c : Char) (cs : List Char) : Option (List Char) :=
  if cs.head? = some c then some (cs.drop 1) else none

def daysInMonth (year month : Nat) : Nat :=
  if month = 2 then
    if year % 4 = 0 && (year % 100 ≠ 0 || year % 400 = 0) then 29 else 28
  else if month = 4 || month = 6 || month = 9 || month = 11 then 30
  else 31

def date? (cs : List Char) : Option (List Char) := do
  let (year, cs) ← field? 4 0 9999 cs
  let (month, cs) ← field? 2 1 12 (← separator? '-' cs)
  let (_, cs) ← field? 2 1 (daysInMonth year month) (← separator? '-' cs)
  return cs

/-- What follows a time with its seconds; a leap second and a fraction are allowed. -/
def time? (cs : List Char) : Option (List Char) := do
  let (_, cs) ← field? 2 0 23 cs
  let (_, cs) ← field? 2 0 59 (← separator? ':' cs)
  let (_, cs) ← field? 2 0 60 (← separator? ':' cs)
  if cs.head? = some '.' then
    let digits := (cs.drop 1).takeWhile isDigit
    if digits.isEmpty then none else return (cs.drop 1).dropWhile isDigit
  else return cs

def isOffset (cs : List Char) : Bool :=
  match cs with
  | [] => true
  | c :: rest =>
    if c = 'Z' || c = 'z' then rest.isEmpty
    else if c = '+' || c = '-' then
      (do
        let (_, rest) ← field? 2 0 23 rest
        let (_, rest) ← field? 2 0 59 (← separator? ':' rest)
        return rest.isEmpty).getD false
    else false

def isTimeWithOffset (cs : List Char) : Bool := (time? cs).any isOffset

def isDate (cs : List Char) : Bool := (date? cs).any (·.isEmpty)

def isDatetime (cs : List Char) : Bool :=
  isDate cs || (time? cs).any (·.isEmpty) ||
    (date? cs).any fun rest =>
      (rest.head? = some 'T' || rest.head? = some 't') && isTimeWithOffset (rest.drop 1)

def token? (cs : List Char) : Option Value :=
  if cs = ['t', 'r', 'u', 'e'] then some (.boolean true)
  else if cs = ['f', 'a', 'l', 's', 'e'] then some (.boolean false)
  else if isDatetime cs then some (.datetime (String.ofList cs))
  else
    match (radixInteger? cs).or (integer? cs) with
    | some n => some (.integer n)
    | none => (float? cs).map .float

end RestSql.Toml
