/-!
Double precision numbers as exact values: the finite ones are `± m · 2 ^ q`. Every operation
rounds the exact result to the nearest double, a tie to the even significand.
-/

namespace RestSql

/-- In a finite double `m < 2 ^ 53` and `-1074 ≤ q ≤ 971`; `m < 2 ^ 52` only if `q = -1074`. -/
inductive Double
  | nan
  | infinity (negative : Bool)
  | finite (negative : Bool) (m : Nat) (q : Int)
deriving DecidableEq, Repr

namespace Double

def minExponent : Int := -1074

def maxExponent : Int := 971

def zero (negative : Bool) : Double := .finite negative 0 minExponent

def neg : Double → Double
  | .nan => .nan
  | .infinity s => .infinity !s
  | .finite s m q => .finite (!s) m q

def isFinite : Double → Bool
  | .finite .. => true
  | _ => false

def isZero : Double → Bool
  | .finite _ m _ => m == 0
  | _ => false

/-- The quotient rounded to the nearest whole number, a half to the even neighbour. -/
def roundQuotient (num den : Nat) : Nat :=
  let r := num % den
  if 2 * r < den then num / den
  else if 2 * r = den then num / den + num / den % 2
  else num / den + 1

/-- A fraction for `num / den · 2 ^ k`. -/
def shift (num den : Nat) (k : Int) : Nat × Nat :=
  (num * Nat.pow 2 k.toNat, den * Nat.pow 2 (-k).toNat)

/-- The exponent at which the significand of `num / den` has 53 bits, or the least exponent. -/
def unitExponent (num den : Nat) : Int :=
  let q := (num.log2 : Int) - den.log2 - 53
  let f := shift num den (-q)
  max (if f.1 / f.2 < Nat.pow 2 53 then q else q + 1) minExponent

/-- The double nearest to `± num / den`; past the largest one it is infinite. -/
def ofRatio (negative : Bool) (num den : Nat) : Double :=
  if num = 0 then zero negative
  else
    let q := unitExponent num den
    let f := shift num den (-q)
    let m := roundQuotient f.1 f.2
    let carried := m = Nat.pow 2 53
    let q' := if carried then q + 1 else q
    if maxExponent < q' then .infinity negative
    else .finite negative (if carried then Nat.pow 2 52 else m) q'

def ofNat (n : Nat) : Double := ofRatio false n 1

/-- The double nearest to `± n · 10 ^ e`. A value with its first digit above `10 ^ 310` or below
`10 ^ (-330)` is settled without computing the power. -/
def ofDecimal (negative : Bool) (n : Nat) (e : Int) : Double :=
  let size : Int := (Nat.toDigits 10 n).length + e
  if n = 0 || size < -330 then zero negative
  else if 310 < size then .infinity negative
  else ofRatio negative (n * Nat.pow 10 e.toNat) (Nat.pow 10 (-e).toNat)

/-- Products of finite doubles; anything else is not a number. -/
def mul : Double → Double → Double
  | .finite s m q, .finite s' m' q' =>
    let f := shift (m * m') 1 (q + q')
    ofRatio (s != s') f.1 f.2
  | _, _ => .nan

/-- Quotients of a finite double and one other than zero; anything else is not a number. -/
def div : Double → Double → Double
  | .finite s m q, .finite s' m' q' =>
    if m' = 0 then .nan
    else
      let f := shift m m' (q - q')
      ofRatio (s != s') f.1 f.2
  | _, _ => .nan

end Double

end RestSql
