import Mathlib.Data.List.Basic

/-!
# Text with a separator

`components` cuts a text at every occurrence of a separator character, keeping
empty pieces; joining the pieces with the separator gives the text back.
-/

namespace Separated

/-- The pieces of `s` between the occurrences of `sep`. -/
def components (sep : Char) (s : String) : List String :=
  (s.toList.splitOn sep).map String.ofList

theorem map_toList_components (sep : Char) (s : String) :
    (components sep s).map String.toList = s.toList.splitOn sep := by
  simp [components, Function.comp_def]

theorem intercalate_components (sep : Char) (s : String) :
    (String.singleton sep).intercalate (components sep s) = s := by
  apply String.toList_injective
  rw [String.toList_intercalate, map_toList_components]
  simp [List.intercalate_splitOn]

example : components ',' "House,,Techno" = ["House", "", "Techno"] := by decide

end Separated
