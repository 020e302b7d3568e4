/-!
UTF-8 from bytes, given as a list. A byte sequence that is not UTF-8 is cut into maximal invalid
parts: the longest start of some character's encoding, and otherwise one byte.
-/

namespace RestSql.Text.Utf8

/-- The head of a byte list: a character with its encoding's length, or the length of an invalid
part. -/
inductive Head
  | char (c : Char) (length : Nat)
  | invalid (length : Nat)

def isContinuation (b : Nat) : Bool := 0x80 ≤ b && b ≤ 0xBF

def secondRange (lead : Nat) : Nat × Nat :=
  if lead = 0xE0 then (0xA0, 0xBF)
  else if lead = 0xED then (0x80, 0x9F)
  else if lead = 0xF0 then (0x90, 0xBF)
  else if lead = 0xF4 then (0x80, 0x8F)
  else (0x80, 0xBF)

def low (b : Nat) : Nat := b % 0x40

/-- Looks at most four bytes ahead; a missing byte counts as one that does not fit. -/
def head (b0 : Nat) (rest : List Nat) : Head :=
  let b1 := rest.headD 0
  let b2 := (rest.drop 1).headD 0
  let b3 := (rest.drop 2).headD 0
  let second := secondRange b0
  if b0 < 0x80 then .char (Char.ofNat b0) 1
  else if b0 < 0xC2 then .invalid 1
  else if b0 < 0xE0 then
    if isContinuation b1 then .char (Char.ofNat (b0 % 0x20 * 0x40 + low b1)) 2 else .invalid 1
  else if 0xF4 < b0 || !(second.1 ≤ b1 && b1 ≤ second.2) then .invalid 1
  else if !isContinuation b2 then .invalid 2
  else if b0 < 0xF0 then .char (Char.ofNat ((b0 % 0x10 * 0x40 + low b1) * 0x40 + low b2)) 3
  else if !isContinuation b3 then .invalid 3
  else .char (Char.ofNat (((b0 % 0x08 * 0x40 + low b1) * 0x40 + low b2) * 0x40 + low b3)) 4

def decodeWith (onInvalid : Option Char) : List Nat → Nat → Option (List Char)
  | [], _ => some []
  | _ :: rest, skip + 1 => decodeWith onInvalid rest skip
  | b :: rest, 0 =>
    match head b rest, onInvalid with
    | .char c n, _ => (decodeWith onInvalid rest (n - 1)).map (c :: ·)
    | .invalid n, some r => (decodeWith onInvalid rest (n - 1)).map (r :: ·)
    | .invalid _, none => none

def decode? (bytes : List UInt8) : Option String :=
  (decodeWith none (bytes.map UInt8.toNat) 0).map String.ofList

def decodeLossy (bytes : List UInt8) : String :=
  String.ofList ((decodeWith (some '\uFFFD') (bytes.map UInt8.toNat) 0).getD [])

def encode (s : String) : List UInt8 := s.toUTF8.toList

end RestSql.Text.Utf8
