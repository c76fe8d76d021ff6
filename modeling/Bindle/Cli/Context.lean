import Bindle.Text.Lines

/-!
# The lines around a fault

`contextText source line column` shows a line of a source with its number, a mark below the column,
and the two lines before and after it.  It is empty when there is no such line.
-/

namespace Bindle.Cli

/-- lines before and after the one that is shown -/
def margin : Nat := 2

def spaces (n : Nat) : String := String.ofList (List.replicate n ' ')

/-- a number in a column of some width -/
def numberText (width n : Nat) : String :=
  let digits := toString n
  spaces (width - digits.length) ++ digits

def markLine (width column : Nat) : String := spaces width ++ " | " ++ spaces (column - 1) ++ "^\n"

/-- numbered lines, with the mark below the one with the fault -/
def numberedLines (width line column : Nat) : Nat → List (List Char) → String
  | _, [] => ""
  | n, l :: ls =>
    numberText width n ++ " | " ++ String.ofList l ++ "\n" ++
      (if n = line then markLine width column else "") ++ numberedLines width line column (n + 1) ls

def contextText (source : String) (line column : Nat) : String :=
  let lines := Text.linesOf source.toList
  if line = 0 ∨ lines.length < line then ""
  else
    let first := max (line - margin) 1
    let last := min (line + margin) lines.length
    let width := (toString last).length
    let rule := String.ofList (List.replicate (width + 1) '-') ++ "|--\n"
    rule ++ numberedLines width line column first ((lines.drop (first - 1)).take (last + 1 - first)) ++
      rule

end Bindle.Cli
