/-!
# Lines

`linesOf cs` is a text cut at its line feeds.  A carriage return in front of a line feed belongs to
the line end, and what follows the last line feed is a line only if it is not empty.
-/

namespace Bindle.Text

def linesOf : List Char → List (List Char)
  | [] => []
  | '\n' :: cs => [] :: linesOf cs
  | '\r' :: '\n' :: cs => [] :: linesOf cs
  | c :: cs =>
    match cs with
    | [] => [[c]]
    | _ :: _ =>
      match linesOf cs with
      | [] => [[c]]
      | l :: ls => (c :: l) :: ls

end Bindle.Text
