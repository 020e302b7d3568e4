import RestSql.Cli.Key
import RestSql.Text.Split

/-!
The words of a command line as options with their values, and operands. An option's value stands
behind `=`, right behind its letter, or in the next word; after `--` every word is an operand.
-/

namespace RestSql.Cli

/-- A word keeps what follows it, because it may name a command with options of its own. -/
inductive Item
  | option (key : Key) (value : String)
  | word (text : String) (rest : List String)
  | operand (text : String)
  | fault
deriving DecidableEq, Repr

namespace Item

/-- The option that a name with perhaps a value spells, and whether it waits for its value. -/
def ofName (keys : List Key) (cs : List Char) : List Item × Option Key :=
  let (name, value) := match Text.cutFirst? '=' cs with
    | some (name, value) => (name, some value)
    | none => (cs, none)
  match keys.find? (·.name = String.ofList name), value with
  | none, _ => ([fault], none)
  | some k, some v => if k.isFlag then ([fault], none) else ([option k (String.ofList v)], none)
  | some k, none => if k.isFlag then ([option k ""], none) else ([], some k)

/-- The options that letters spell: flags up to one with a value, which may still wait for it. -/
def ofLetters (keys : List Key) : List Char → List Item × Option Key
  | [] => ([], none)
  | c :: cs =>
    match keys.find? (·.letter? = some c) with
    | none => ([fault], none)
    | some k =>
      if k.isFlag then (option k "" :: (ofLetters keys cs).1, (ofLetters keys cs).2)
      else
        match cs with
        | [] => ([], some k)
        | '=' :: v => ([option k (String.ofList v)], none)
        | v => ([option k (String.ofList v)], none)

/-- A word that begins with a hyphen spells options, unless it is nothing else. -/
def spellsOptions (w : String) : Bool :=
  match w.toList with
  | '-' :: _ :: _ => true
  | _ => false

def ofOptions (keys : List Key) (w : String) : List Item × Option Key :=
  match w.toList with
  | '-' :: '-' :: cs => ofName keys cs
  | '-' :: cs => ofLetters keys cs
  | _ => ([], none)

/-- A word that spells options is not the value of the option before it. -/
def ofWords (keys : List Key) : List String → List Item
  | [] => []
  | w :: ws =>
    if w = "--" then ws.map operand
    else if spellsOptions w then
      match ofOptions keys w with
      | (items, none) => items ++ ofWords keys ws
      | (items, some k) =>
        match ws with
        | [] => items ++ [fault]
        | v :: rest =>
          if spellsOptions v then items ++ [fault]
          else items ++ option k v :: ofWords keys rest
    else word w ws :: ofWords keys ws

end Item

end RestSql.Cli
