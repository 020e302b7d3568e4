import RestSql.Json.Basic
import RestSql.Json.Written

/-!
What written JSON means: the value of a numeral, the text of a string, and objects with their
members in order of the names, where the last of several members with one name counts.

A numeral without point and exponent that fits 64 bits is whole. Any other is a double: its digits
are kept in a 64 bit significand while they fit, and a power of ten scales that significand by
rounded multiplications and divisions. A value past the largest double has no meaning.
-/

namespace RestSql.Json

open RestSql.Text (digitValue countBound integerBound)

/-- Takes digits into the significand up to the first one that does not fit, and tells how many
were taken. -/
def takeDigits : Nat → List Char → Nat × Nat
  | n, [] => (n, 0)
  | n, c :: cs =>
    let n' := 10 * n + digitValue c
    if n' < countBound then let r := takeDigits n' cs; (r.1, r.2 + 1) else (n, 0)

def exponentBound : Nat := Nat.pow 2 31

def powerOfTen (n : Nat) : Double := .ofDecimal false 1 n

/-- Divides by `10 ^ 308` as long as the exponent is beyond it, then by the power that is left. -/
def scaleDown : Nat → Double → Nat → Double
  | 0, x, _ => x
  | steps + 1, x, n =>
    if n ≤ 308 then x.div (powerOfTen n)
    else if x.isZero then x
    else scaleDown steps (x.div (powerOfTen 308)) (n - 308)

/-- The significand times `10 ^ e`, in rounded steps; none where it passes the largest double. No
64 bit significand survives three divisions by `10 ^ 308`. -/
def scaled? (significand : Nat) (e : Int) : Option Double :=
  let x := Double.ofNat significand
  if e < 0 then some (scaleDown 4 x e.natAbs)
  else if e ≤ 308 then (some (x.mul (powerOfTen e.natAbs))).filter Double.isFinite
  else if x.isZero then some x
  else none

namespace Numeral

def float? (n : Numeral) : Option Double :=
  let (significand, taken) := takeDigits 0 n.whole
  let (significand, places) := takeDigits significand n.fraction
  let point : Int := (n.whole.length - taken : Nat) - (places : Int)
  let magnitude := match n.exponent with
    | none => scaled? significand point
    | some (negative, digits) =>
      let e := Text.digitsValue digits
      if e < exponentBound then scaled? significand (if negative then point - e else point + e)
      else if negative || significand = 0 then some (.zero false)
      else none
  magnitude.map fun x => if n.negative then x.neg else x

def value? (n : Numeral) : Option Number :=
  let m := Text.digitsValue n.whole
  if n.fraction.isEmpty && n.exponent.isNone && m < countBound then
    if !n.negative then some (.whole m)
    else if 0 < m && m ≤ integerBound then some (.whole (-m))
    else some (.float (Double.ofNat m).neg)
  else n.float?.map .float

end Numeral

def isHighSurrogate (code : Nat) : Bool := 0xD800 ≤ code && code ≤ 0xDBFF

def isLowSurrogate (code : Nat) : Bool := 0xDC00 ≤ code && code ≤ 0xDFFF

/-- The text of a string; a surrogate has to stand in a pair. -/
def lettersText? : List Letter → Option (List Char)
  | [] => some []
  | .char c :: ls => (lettersText? ls).map (c :: ·)
  | .unit h :: .unit l :: ls =>
    if isHighSurrogate h then
      if isLowSurrogate l then
        (lettersText? ls).map
          (Char.ofNat (0x10000 + (h - 0xD800) * 0x400 + (l - 0xDC00)) :: ·)
      else none
    else if isLowSurrogate h then none
    else (lettersText? (.unit l :: ls)).map (Char.ofNat h :: ·)
  | .unit h :: ls =>
    if isHighSurrogate h || isLowSurrogate h then none
    else (lettersText? ls).map (Char.ofNat h :: ·)

def letters (ls : List Letter) : Option String := (lettersText? ls).map String.ofList

namespace Written

mutual

def depth : Written → Nat
  | .array items => depthItems items + 1
  | .object members => depthMembers members + 1
  | _ => 0

def depthItems : List Written → Nat
  | [] => 0
  | w :: ws => max (depth w) (depthItems ws)

def depthMembers : List (List Letter × Written) → Nat
  | [] => 0
  | (_, w) :: ms => max (depth w) (depthMembers ms)

end

def maxDepth : Nat := 127

mutual

def meaning? : Written → Option Json
  | .null => some .null
  | .bool b => some (.bool b)
  | .number n => n.value?.map .number
  | .string ls => (letters ls).map .string
  | .array items => (meaningItems? items).map .array
  | .object members => (meaningMembers? members).map fun ms => .object (ordered ms)

def meaningItems? : List Written → Option (List Json)
  | [] => some []
  | w :: ws => do
    let v ← meaning? w
    let vs ← meaningItems? ws
    return v :: vs

def meaningMembers? : List (List Letter × Written) → Option (List (String × Json))
  | [] => some []
  | (ls, w) :: ms => do
    let name ← letters ls
    let v ← meaning? w
    let vs ← meaningMembers? ms
    return (name, v) :: vs

end

def toJson? (w : Written) : Option Json := if w.depth ≤ maxDepth then w.meaning? else none

end Written

def ofText? (s : String) : Option Json := (Written.ofText? s).bind Written.toJson?

end RestSql.Json
