import RestSql.Json.Basic
import RestSql.Double.Layout

namespace RestSql.Json

def hexChar (n : Nat) : Char := (Nat.toDigits 16 n).headD '0'

def escaped (c : Char) : List Char :=
  if c = '\x22' then ['\\', '\x22']
  else if c = '\\' then ['\\', '\\']
  else if c = '\x08' then ['\\', 'b']
  else if c = '\x0c' then ['\\', 'f']
  else if c = '\n' then ['\\', 'n']
  else if c = '\r' then ['\\', 'r']
  else if c = '\t' then ['\\', 't']
  else if c < ' ' then ['\\', 'u', '0', '0', hexChar (c.toNat / 16), hexChar (c.toNat % 16)]
  else [c]

def quoted (s : String) : List Char := '\x22' :: (s.toList.flatMap escaped ++ ['\x22'])

/-- A double that is not finite has no JSON text and is written as null. -/
def Number.text : Number → String
  | .whole n => toString n
  | .float x => if x.isFinite then Double.Layout.json.write x else "null"

mutual

def chars : Json → List Char
  | .null => ['n', 'u', 'l', 'l']
  | .bool true => ['t', 'r', 'u', 'e']
  | .bool false => ['f', 'a', 'l', 's', 'e']
  | .number n => n.text.toList
  | .string s => quoted s
  | .array items => '[' :: (charsItems items ++ [']'])
  | .object members => '{' :: (charsMembers members ++ ['}'])

def charsItems : List Json → List Char
  | [] => []
  | [v] => chars v
  | v :: vs => chars v ++ ',' :: charsItems vs

def charsMembers : List (String × Json) → List Char
  | [] => []
  | [(name, v)] => quoted name ++ ':' :: chars v
  | (name, v) :: ms => quoted name ++ ':' :: chars v ++ ',' :: charsMembers ms

end

def compact (v : Json) : String := String.ofList v.chars

def newline (level : Nat) : List Char := '\n' :: List.replicate (2 * level) ' '

mutual

/-- Two blanks a level; empty arrays and objects stay on their line. -/
def prettyChars (level : Nat) : Json → List Char
  | .array (v :: vs) =>
    '[' :: (newline (level + 1) ++ prettyItems (level + 1) (v :: vs) ++ newline level ++ [']'])
  | .object (m :: ms) =>
    '{' :: (newline (level + 1) ++ prettyMembers (level + 1) (m :: ms) ++ newline level ++ ['}'])
  | .array [] => ['[', ']']
  | .object [] => ['{', '}']
  | v => chars v

def prettyItems (level : Nat) : List Json → List Char
  | [] => []
  | [v] => prettyChars level v
  | v :: vs => prettyChars level v ++ ',' :: newline level ++ prettyItems level vs

def prettyMembers (level : Nat) : List (String × Json) → List Char
  | [] => []
  | [(name, v)] => quoted name ++ ':' :: ' ' :: prettyChars level v
  | (name, v) :: ms =>
    quoted name ++ ':' :: ' ' :: prettyChars level v ++ ',' :: newline level ++
      prettyMembers level ms

end

def pretty (v : Json) : String := String.ofList (v.prettyChars 0)

end RestSql.Json
