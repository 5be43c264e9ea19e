set_option autoImplicit false

/-!
# Substitution in a text

## Main definitions

* `ReleaseDiff.Text.substitute` — replaces every occurrence of a pattern, left to right, without
  looking at what was put in.
-/

namespace ReleaseDiff.Text

/-- Replaces the occurrences of a pattern after passing over a number of characters that an
occurrence has already taken. -/
def substituteFrom (pattern replacement : List Char) : Nat → List Char → List Char
  | _, [] => []
  | skip + 1, _ :: cs => substituteFrom pattern replacement skip cs
  | 0, c :: cs =>
    if pattern.isPrefixOf (c :: cs) then
      replacement ++ substituteFrom pattern replacement (pattern.length - 1) cs
    else c :: substituteFrom pattern replacement 0 cs

/-- **Replaces every occurrence of a non-empty pattern**, left to right; occurrences do not
overlap. -/
def substitute (text pattern replacement : String) : String :=
  String.ofList (substituteFrom pattern.toList replacement.toList 0 text.toList)

end ReleaseDiff.Text
