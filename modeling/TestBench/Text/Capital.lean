import TestBench.Text.Uppercase

/-! # Capitalised text

A sentence starts with a capital: its first character is upper-cased and nothing else changes.
-/

namespace TestBench.Text

def capitalizeChars : List Char → List Char
  | [] => []
  | c :: rest => uppercase c ++ rest

def capitalize (s : String) : String :=
  String.ofList (capitalizeChars s.toList)

theorem toList_capitalize (s : String) : (capitalize s).toList = capitalizeChars s.toList := by
  simp [capitalize]

end TestBench.Text
