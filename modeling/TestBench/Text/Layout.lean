import TestBench.Text.Hidden

/-! # Layout of structured values

A structured value is shown on one line, or spread over several lines with one field or element a
line. Texts are quoted.
-/

namespace TestBench.Text

def hexDigits (n : Nat) : String := String.ofList (Nat.toDigits 16 n)

/-- Quotes, backslashes and hidden characters are escaped; all other characters stand as they are. -/
def escape (c : Char) : String :=
  match c with
  | '"' => "\\\""
  | '\\' => "\\\\"
  | '\n' => "\\n"
  | '\t' => "\\t"
  | '\r' => "\\r"
  | '\x00' => "\\0"
  | c =>
      if isHidden c then "\\u\x7b" ++ hexDigits c.toNat ++ "\x7d" else String.singleton c

def quote (s : String) : String := "\"" ++ String.join (s.toList.map escape) ++ "\""

inductive Layout
  | atom (text : String)
  /-- A named value with named fields, as in "Point { x: 1, y: 2 }". -/
  | record (name : String) (fields : List (String × Layout))
  /-- A named value with positional fields, as in "Some(1)". -/
  | apply (name : String) (args : List Layout)
  | list (elements : List Layout)
  | set (elements : List Layout)

namespace Layout

def text (s : String) : Layout := atom (quote s)

def nat (n : Nat) : Layout := atom (toString n)

def bool (b : Bool) : Layout := atom (if b then "true" else "false")

def option : Option Layout → Layout
  | none => atom "None"
  | some l => apply "Some" [l]

mutual

def compact : Layout → String
  | atom s => s
  | record name fields => name ++ " \x7b " ++ ", ".intercalate (compactFields fields) ++ " \x7d"
  | apply name args => name ++ "(" ++ ", ".intercalate (compactAll args) ++ ")"
  | list elements => "[" ++ ", ".intercalate (compactAll elements) ++ "]"
  | set elements => "\x7b" ++ ", ".intercalate (compactAll elements) ++ "\x7d"

def compactAll : List Layout → List String
  | [] => []
  | l :: rest => l.compact :: compactAll rest

def compactFields : List (String × Layout) → List String
  | [] => []
  | (name, l) :: rest => (name ++ ": " ++ l.compact) :: compactFields rest

end

def indent (depth : Nat) : String := String.ofList (List.replicate (4 * depth) ' ')

/-- Items on lines of their own, one level deeper than `depth`, between two delimiters. -/
def block (opening closing : String) (depth : Nat) (items : List String) : String :=
  if items.isEmpty then opening ++ closing
  else opening ++ "\n" ++ String.join (items.map fun item => indent (depth + 1) ++ item ++ ",\n") ++
    indent depth ++ closing

mutual

def spread (depth : Nat) : Layout → String
  | atom s => s
  | record name fields => name ++ block " \x7b" "\x7d" depth (spreadFields (depth + 1) fields)
  | apply name args => name ++ block "(" ")" depth (spreadAll (depth + 1) args)
  | list elements => block "[" "]" depth (spreadAll (depth + 1) elements)
  | set elements => block "\x7b" "\x7d" depth (spreadAll (depth + 1) elements)

def spreadAll (depth : Nat) : List Layout → List String
  | [] => []
  | l :: rest => l.spread depth :: spreadAll depth rest

def spreadFields (depth : Nat) : List (String × Layout) → List String
  | [] => []
  | (name, l) :: rest => (name ++ ": " ++ l.spread depth) :: spreadFields depth rest

end

end Layout

end TestBench.Text
