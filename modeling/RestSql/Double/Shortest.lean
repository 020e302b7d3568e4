import RestSql.Double.Basic

/-!
The fewest decimal digits that read back as a given double, and of those the digits nearest to it;
where two are equally near, a tie rule decides.
A decimal reads back as `m · 2 ^ q` when it lies between the midpoints to the neighbours of that
double; the midpoints themselves belong to it when `m` is even.
-/

namespace RestSql.Double

structure Decimal where
  digits : Nat
  exponent : Int
deriving DecidableEq, Repr

/-- Compares `a · 10 ^ p` with `b · 2 ^ q` exactly. -/
def compareDecimal (a : Nat) (p : Int) (b : Nat) (q : Int) : Ordering :=
  compare (a * Nat.pow 10 p.toNat * Nat.pow 2 (-q).toNat)
    (b * Nat.pow 2 q.toNat * Nat.pow 10 (-p).toNat)

/-- The midpoints to the neighbours of `m · 2 ^ q`, in units of `2 ^ (q - 2)`. The neighbour below
a power of two is half as far away. -/
def midpoints (m : Nat) (q : Int) : Nat × Nat :=
  (if m = Nat.pow 2 52 && q != minExponent then 4 * m - 1 else 4 * m - 2, 4 * m + 2)

/-- Whether `a · 10 ^ p` reads back as `m · 2 ^ q`. -/
def readsBack (m : Nat) (q : Int) (a : Nat) (p : Int) : Bool :=
  let ends := midpoints m q
  let low := compareDecimal a p ends.1 (q - 2)
  let high := compareDecimal a p ends.2 (q - 2)
  (low == .gt || low == .eq && m % 2 == 0) && (high == .lt || high == .eq && m % 2 == 0)

def firstPower (num den : Nat) : Int :=
  if den ≤ num then (Nat.toDigits 10 (num / den)).length - 1
  else
    let n := (Nat.toDigits 10 (den / num)).length
    if den ≤ num * Nat.pow 10 (n - 1) then 1 - (n : Int) else -(n : Int)

inductive Tie
  | toEven | up
deriving DecidableEq, Repr

def Tie.round (t : Tie) (num den : Nat) : Nat :=
  match t with
  | toEven => roundQuotient num den
  | up => (2 * num + den) / (2 * den)

/-- The neighbours of `m · 2 ^ q` among the multiples of `10 ^ p` that read back, the nearer one
first choice. -/
def pick? (t : Tie) (m : Nat) (q p : Int) : Option Nat :=
  let f := shift m 1 q
  let num := f.1 * Nat.pow 10 (-p).toNat
  let den := f.2 * Nat.pow 10 p.toNat
  let a := num / den
  match readsBack m q a p, readsBack m q (a + 1) p with
  | true, true => some (t.round num den)
  | true, false => some a
  | false, true => some (a + 1)
  | false, false => none

/-- The first count of digits from `n` on, among `fuel` of them, with a decimal that reads back. -/
def search (t : Tie) (m : Nat) (q first : Int) : Nat → Nat → Option Decimal
  | 0, _ => none
  | fuel + 1, n =>
    let p := first - n + 1
    match pick? t m q p with
    | some a => some ⟨a, p⟩
    | none => search t m q first fuel (n + 1)

def stripZeros : Nat → Decimal → Decimal
  | 0, d => d
  | fuel + 1, d =>
    if d.digits != 0 && d.digits % 10 == 0 then stripZeros fuel ⟨d.digits / 10, d.exponent + 1⟩
    else d

/-- Seventeen digits are always enough. -/
def shortest (t : Tie) (m : Nat) (q : Int) : Decimal :=
  let f := shift m 1 q
  let d := (search t m q (firstPower f.1 f.2) 17 1).getD ⟨m, q⟩
  stripZeros 20 d

end RestSql.Double
