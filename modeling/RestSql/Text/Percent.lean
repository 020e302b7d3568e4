import RestSql.Text.Utf8

/-!
Percent escapes in URIs, and form-urlencoded query strings. An escape that is not followed by two
hexadecimal digits stands for itself.
-/

namespace RestSql.Text.Percent

def hexValue? (b : UInt8) : Option UInt8 :=
  if 0x30 ≤ b && b ≤ 0x39 then some (b - 0x30)
  else if 0x41 ≤ b && b ≤ 0x46 then some (b - 0x37)
  else if 0x61 ≤ b && b ≤ 0x66 then some (b - 0x57)
  else none

def decode : List UInt8 → List UInt8
  | [] => []
  | [b] => [b]
  | [b, c] => [b, c]
  | b :: h :: l :: rest =>
    if b = 0x25 then
      match hexValue? h, hexValue? l with
      | some hi, some lo => (hi * 16 + lo) :: decode rest
      | _, _ => b :: decode (h :: l :: rest)
    else b :: decode (h :: l :: rest)

private def splitBytes (sep : UInt8) : List UInt8 → List (List UInt8)
  | [] => [[]]
  | b :: bs =>
    if b = sep then [] :: splitBytes sep bs
    else
      match splitBytes sep bs with
      | [] => [[b]]
      | p :: ps => (b :: p) :: ps

/-- A plus sign is a space, and it is replaced before the escapes are read. -/
def component (bytes : List UInt8) : String :=
  Utf8.decodeLossy (decode (bytes.map fun b => if b = 0x2B then 0x20 else b))

/-- The key is what stands before the first equals sign; without one the value is empty. -/
def pair (bytes : List UInt8) : String × String :=
  (component (bytes.takeWhile (· ≠ 0x3D)), component ((bytes.dropWhile (· ≠ 0x3D)).drop 1))

/-- The pairs of a query string in order; empty pieces between ampersands are skipped. -/
def queryPairs (query : String) : List (String × String) :=
  ((splitBytes 0x26 (Utf8.encode query)).filter (!·.isEmpty)).map pair

end RestSql.Text.Percent
