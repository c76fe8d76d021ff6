/-!
# Replacing a text inside another

`replaceAll old new s` replaces every occurrence of `old` in `s`, from left to right; what has been
put in is not searched again.
-/

namespace Bindle.Text

/-- an empty `old` occurs before every character and at the end -/
def replaceAll (old new : List Char) : List Char → List Char
  | [] => if old.isEmpty then new else []
  | c :: cs =>
    if old.isEmpty then new ++ c :: replaceAll old new cs
    else if old.isPrefixOf (c :: cs) then new ++ replaceAll old new (cs.drop (old.length - 1))
    else c :: replaceAll old new cs
termination_by cs => cs.length
decreasing_by
  · simp
  · simp only [List.length_drop, List.length_cons]
    omega
  · simp

end Bindle.Text
