import RestSql.Double.Layout
import RestSql.Double.Reading
import RestSql.Json.Printer
import RestSql.Text.Numeral
import RestSql.Text.Quoted
import RestSql.Text.Split

namespace RestSql

inductive Value
  | null
  | bool (b : Bool)
  | int (n : Int)
  | float (x : Double)
  | string (s : String)
deriving DecidableEq, Repr

namespace Value

open RestSql.Text

def literal : Value → String
  | .null => "NULL"
  | .bool b => if b then "true" else "false"
  | .int n => toString n
  | .float x => Double.Layout.bare.write x
  | .string s => String.ofList (Quoted.write '\x27' '\x27' s.toList)

/-- Digits without a leading zero, or a zero alone. -/
def isPlainWhole (cs : List Char) : Bool :=
  !cs.isEmpty && cs.all isDigit && (cs = ['0'] || cs.head? != some '0')

/-- The narrowest literal that a text spells: a boolean, a plain decimal that fits 64 bits, a plain
decimal with a point. Anything else stays text, also with a plus sign or leading zeros. -/
def infer (text : String) : Value :=
  if text = "true" then .bool true
  else if text = "false" then .bool false
  else
    let cs := text.toList
    let negative := cs.head? = some '-'
    let digits := if negative then cs.drop 1 else cs
    let number : Option Value := match cutFirst? '.' digits with
      | none => if isPlainWhole digits then (integer? integerBound text).map .int else none
      | some (whole, fraction) =>
        if isPlainWhole whole && !fraction.isEmpty && fraction.all isDigit then
          let x := Double.ofDecimal negative (digitsValue (whole ++ fraction)) (-fraction.length)
          if x.isFinite then some (.float x) else none
        else none
    number.getD (.string text)

/-- Arrays and objects are bound as their JSON text. -/
def ofJson : Json → Value
  | .null => .null
  | .bool b => .bool b
  | .number (.whole n) =>
    if n < integerBound then .int n else .float (Double.ofNat n.toNat)
  | .number (.float x) => .float x
  | .string s => .string s
  | v => .string v.compact

def toJson : Value → Json
  | .null => .null
  | .bool b => .bool b
  | .int n => .number (.whole n)
  | .float x => .number (.float x)
  | .string s => .string s

end Value

end RestSql
