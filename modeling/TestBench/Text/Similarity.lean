/-! # Similar words

The Jaro similarity of two words: two characters match if they are equal and their places are close,
and the similarity grows with the share of characters that match and the share of matches in order.
-/

namespace TestBench.Text

def matchRange (a b : List Char) : Nat := max a.length b.length / 2 - 1

/-- Matches the characters of a word, the first of them at place `i`, with those of the other word that
are still free. Gives the characters that matched and those that stayed free. -/
def matchWithin (range : Nat) (i : Nat) :
    List Char → List (Nat × Char) → List Char × List (Nat × Char)
  | [], free => ([], free)
  | c :: rest, free =>
      match free.find? fun (j, d) => i ≤ j + range && j ≤ i + range && c == d with
      | some place =>
          let (matched, left) := matchWithin range (i + 1) rest (free.erase place)
          (c :: matched, left)
      | none => matchWithin range (i + 1) rest free

def matchingChars (a b : List Char) : List Char × List Char :=
  let places := b.mapIdx fun j d => (j, d)
  let (matched, left) := matchWithin (matchRange a b) 0 a places
  (matched, (places.filter (!left.contains ·)).map (·.2))

def transpositions (a b : List Char) : Nat := (a.zip b).countP (fun (c, d) => c != d) / 2

def share (n m : Nat) : Float := n.toFloat / m.toFloat

def similarity (s t : String) : Float :=
  let (a, b) := matchingChars s.toList t.toList
  let m := a.length
  if m = 0 then if s.isEmpty && t.isEmpty then 1 else 0
  else (share m s.length + share m t.length + share (m - transpositions a b) m) / 3

/-- The words that are more similar to `s` than not, the most similar last. -/
def similarWords (s : String) (words : List String) : List String :=
  let rated := (words.map fun word => (similarity s word, word)).filter fun r => 0.7 < r.1
  (rated.mergeSort fun r q => r.1 ≤ q.1).map (·.2)

end TestBench.Text
