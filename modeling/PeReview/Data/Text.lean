import Mathlib.Data.List.Basic

/-!
# Text

The methods of Python's `str` the modelled code uses.
-/

namespace PeReview

/-- The characters `str.strip` and `str.isspace` treat as white space. -/
def isPythonSpace (char : Char) : Bool :=
  let code := char.toNat
  (9 ≤ code && code ≤ 13) || (28 ≤ code && code ≤ 32) ||
    (8192 ≤ code && code ≤ 8202) ||
    [133, 160, 5760, 8232, 8233, 8239, 8287, 12288].contains code

/-- `str.strip`. -/
def pyStrip (text : String) : String :=
  String.ofList
    (((text.toList.dropWhile isPythonSpace).reverse.dropWhile
      isPythonSpace).reverse)

end PeReview
