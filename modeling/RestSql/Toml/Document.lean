import RestSql.Toml.Node
import RestSql.Toml.Reading

namespace RestSql.Toml

mutual

def value? : Nat → Nat → List Char → Option (Value × List Char)
  | 0, _, _ => none
  | fuel + 1, depth, cs =>
    match cs with
    | '[' :: rest =>
      if depthBound ≤ depth + 1 then none
      else (items? fuel (depth + 1) rest).map fun p => (.array p.1, p.2)
    | '{' :: rest =>
      if depthBound ≤ depth + 1 then none
      else
        match skipBlank rest with
        | '}' :: rest => some (.table [], rest)
        | rest =>
          (inlineEntries? fuel (depth + 1) [] rest).map fun p => (.table (Node.values p.1), p.2)
    | c :: _ =>
      if c = '\x22' || c = '\x27' then
        (string? cs).map fun p => (.string (String.ofList p.1), p.2)
      else
        let token := cs.takeWhile isTokenChar
        let rest := cs.dropWhile isTokenChar
        let time := (rest.drop 1).takeWhile isTokenChar
        if isDate token && rest.head? = some ' ' && !time.isEmpty then
          if isTimeWithOffset time then
            some (.datetime (String.ofList (token ++ ' ' :: time)), (rest.drop 1).drop time.length)
          else none
        else (token? token).map (·, rest)
    | [] => none

/-- The rest of an array: values with commas between, and one at the end if wanted. -/
def items? : Nat → Nat → List Char → Option (List Value × List Char)
  | 0, _, _ => none
  | fuel + 1, depth, cs =>
    match skipTrivia false cs with
    | ']' :: rest => some ([], rest)
    | cs =>
      match value? fuel depth cs with
      | none => none
      | some (v, rest) =>
        match skipTrivia false rest with
        | ',' :: rest => (items? fuel depth rest).map fun p => (v :: p.1, p.2)
        | ']' :: rest => some ([v], rest)
        | _ => none

/-- The rest of an inline table with one entry at least, added to those before. -/
def inlineEntries? : Nat → Nat → Node.Entries → List Char → Option (Node.Entries × List Char)
  | 0, _, _, _ => none
  | fuel + 1, depth, entries, cs =>
    match key? cs with
    | some (path, '=' :: rest) =>
      match value? fuel depth (skipBlank rest) with
      | none => none
      | some (v, rest) =>
        match Node.assign path.dropLast (path.getLastD "") (.leaf v) false entries with
        | none => none
        | some entries =>
          match skipBlank rest with
          | ',' :: rest => inlineEntries? fuel depth entries rest
          | '}' :: rest => some (entries, rest)
          | _ => none
    | _ => none

end

def endLine? (cs : List Char) : Option (List Char) :=
  let cs := skipBlank cs
  let cs := if cs.head? = some '#' then cs.dropWhile isTextChar else cs
  if cs.isEmpty then some [] else lineEnd? cs

def header? (cs : List Char) : Option (Bool × List String × List Char) :=
  match cs with
  | '[' :: '[' :: rest =>
    match key? rest with
    | some (path, ']' :: ']' :: rest) => some (true, path, rest)
    | _ => none
  | '[' :: rest =>
    match key? rest with
    | some (path, ']' :: rest) => some (false, path, rest)
    | _ => none
  | _ => none

def lines? : Nat → List String → Node.Entries → List Char → Option Node.Entries
  | 0, _, _, _ => none
  | fuel + 1, current, entries, cs =>
    match skipBlank cs with
    | [] => some entries
    | '[' :: rest => do
      let (isElement, path, rest) ← header? ('[' :: rest)
      let rest ← endLine? rest
      let entries ← if isElement then Node.openElement path entries else Node.openTable path entries
      lines? fuel path entries rest
    | c :: rest =>
      if c = '#' || c = '\n' || c = '\r' then do
        let rest ← endLine? (c :: rest)
        lines? fuel current entries rest
      else
        match key? (c :: rest) with
        | some (path, '=' :: rest) => do
          let (v, rest) ← value? (2 * rest.length + 2) 0 (skipBlank rest)
          let rest ← endLine? rest
          let add := Node.assign path.dropLast (path.getLastD "") (.leaf v)
          let entries ← Node.update false (fun _ es => add false es) current false entries
          lines? fuel current entries rest
        | _ => none

/-- A mark of the byte order may stand in front. -/
def ofText? (s : String) : Option Entries :=
  let cs := s.toList
  let cs := if cs.head? = some '\uFEFF' then cs.drop 1 else cs
  (lines? (cs.length + 1) [] [] cs).map Node.values

end RestSql.Toml
