import RestSql.Settings.Environment

/-!
Colours on a terminal. A styled text stands between the sequence that begins its style and the one
that ends all styles; where the text itself ends them, the style begins again.
-/

namespace RestSql.Cli

/-- Colours are used if they are forced, not if they are refused, and else on a terminal only. -/
def usesColours (env : Settings.Environment) (terminal : Bool) : Bool :=
  if (env "CLICOLOR_FORCE").any (· ≠ "0") then true
  else if (env "NO_COLOR").isSome then false
  else terminal && env "CLICOLOR" ≠ some "0"

inductive Style
  | title | result | column | label | code | value | sample | trouble
deriving DecidableEq, Repr

namespace Style

def codes : Style → String
  | title => "1;36"
  | result => "1;32"
  | column => "1;37"
  | label => "36"
  | code => "37"
  | value => "33"
  | sample => "2"
  | trouble => "1;31"

def begin (s : Style) : List Char := "\x1b[".toList ++ s.codes.toList ++ ['m']

def finish : List Char := "\x1b[0m".toList

/-- The text with the style begun again after each end of styles in it. -/
def resume (start : List Char) : List Char → List Char
  | '\x1b' :: '[' :: '0' :: 'm' :: cs => finish ++ start ++ resume start cs
  | c :: cs => c :: resume start cs
  | [] => []

def paint (colours : Bool) (s : Style) (text : String) : String :=
  if colours then String.ofList (s.begin ++ resume s.begin text.toList ++ finish) else text

end Style

end RestSql.Cli
