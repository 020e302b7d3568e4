import RestSql.Double.Shortest

/-!
How the digits of a double are laid out as text. A layout says for which powers of ten of the
first digit the text is positional, whether a whole number keeps a point and a zero, and which of
two equally near digits is the last one.
-/

namespace RestSql.Double

structure Layout where
  /-- Least and greatest power of ten of the first digit that are written positionally; all are
  when there is no range. -/
  positional : Option (Int × Int)
  /-- Whole numbers end in `.0`. -/
  pointZero : Bool
  /-- The choice between digits that are equally near. -/
  tie : Tie

/-- JSON text: scientific below `10 ^ (-5)` and from `10 ^ 16` on, with an even last digit in a
tie. -/
def Layout.json : Layout := ⟨some (-5, 15), true, .toEven⟩

/-- Never an exponent, no point in a whole number, and the greater digits in a tie. -/
def Layout.bare : Layout := ⟨none, false, .up⟩

private def zeros (n : Nat) : List Char := List.replicate n '0'

/-- Digits with a point after the one of power zero; `e` is the power of the first one. -/
def Layout.position (l : Layout) (ds : List Char) (e : Int) : List Char :=
  if e < 0 then '0' :: '.' :: zeros (-e - 1).toNat ++ ds
  else
    let n := e.toNat + 1
    if ds.length ≤ n then
      ds ++ zeros (n - ds.length) ++ (if l.pointZero then ['.', '0'] else [])
    else ds.take n ++ '.' :: ds.drop n

def scientific (ds : List Char) (e : Int) : List Char :=
  let fraction := if (ds.drop 1).isEmpty then [] else '.' :: ds.drop 1
  let sign := if e < 0 then '-' else '+'
  ds.take 1 ++ fraction ++ 'e' :: sign :: Nat.toDigits 10 e.natAbs

def Layout.magnitude (l : Layout) (m : Nat) (q : Int) : List Char :=
  if m = 0 then (if l.pointZero then ['0', '.', '0'] else ['0'])
  else
    let d := shortest l.tie m q
    let ds := Nat.toDigits 10 d.digits
    let e := d.exponent + ds.length - 1
    match l.positional with
    | some (low, high) => if low ≤ e && e ≤ high then l.position ds e else scientific ds e
    | none => l.position ds e

def Layout.write (l : Layout) : Double → String
  | .nan => "NaN"
  | .infinity true => "-inf"
  | .infinity false => "inf"
  | .finite true m q => String.ofList ('-' :: l.magnitude m q)
  | .finite false m q => String.ofList (l.magnitude m q)

end RestSql.Double
