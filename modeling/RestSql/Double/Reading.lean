import RestSql.Double.Basic
import RestSql.Text.Numeral

/-!
Doubles from text: an optional sign, digits with an optional point and an optional exponent, or
the words for infinity and for no number. The value is the nearest double.
-/

namespace RestSql.Double

open RestSql.Text

def exponent? : List Char → Option Int
  | [] => some 0
  | c :: cs =>
    if c = 'e' || c = 'E' then
      match cs with
      | '-' :: ds => (natural? ds).map fun n => -(n : Int)
      | '+' :: ds => (natural? ds).map Int.ofNat
      | ds => (natural? ds).map Int.ofNat
    else none

/-- Digits may stand on either side of the point, and one at least must be there. -/
def unsigned? (negative : Bool) (cs : List Char) : Option Double :=
  let whole := cs.takeWhile isDigit
  let rest := cs.dropWhile isDigit
  let fraction := match rest with
    | '.' :: ds => ds.takeWhile isDigit
    | _ => []
  let rest := match rest with
    | '.' :: ds => ds.dropWhile isDigit
    | ds => ds
  if whole.isEmpty && fraction.isEmpty then none
  else
    (exponent? rest).map fun e =>
      ofDecimal negative (digitsValue (whole ++ fraction)) (e - fraction.length)

def word? (negative : Bool) (cs : List Char) : Option Double :=
  let w := String.ofList (cs.map Char.toLower)
  if w = "inf" || w = "infinity" then some (.infinity negative)
  else if w = "nan" then some .nan
  else none

def ofText? (s : String) : Option Double :=
  match s.toList with
  | '-' :: cs => (unsigned? true cs).or (word? true cs)
  | '+' :: cs => (unsigned? false cs).or (word? false cs)
  | cs => (unsigned? false cs).or (word? false cs)

end RestSql.Double
