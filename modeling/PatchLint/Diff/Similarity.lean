import PatchLint.Diff.Script
import PatchLint.Text.Basic

/-!
# Similarity of texts

How much two texts have in common: twice the number of characters that an edit script keeps, over the
sum of their lengths. Names that are close to a misspelt one are suggested in its place.
-/

namespace PatchLint

variable {α : Type} [DecidableEq α]

/-- The number of elements that the edit script between two lists keeps. -/
def keptCount (a b : List α) : Nat :=
  (script a b).foldl (fun n segment => match segment with
    | .same items => n + items.length
    | .change _ _ => n) 0

/-- A fraction, written as its numerator and its denominator. -/
structure Ratio where
  num : Nat
  den : Nat
  deriving DecidableEq, Repr

namespace Ratio

/-- Compares fractions with positive denominators. -/
def le (p q : Ratio) : Bool := p.num * q.den ≤ q.num * p.den

end Ratio

/-- The similarity of two lists; two empty lists are alike. -/
def similarity (a b : List α) : Ratio :=
  if a.isEmpty && b.isEmpty then ⟨1, 1⟩ else ⟨2 * keptCount a b, a.length + b.length⟩

/-- The similarity from which on a name is suggested. -/
def closeEnough : Ratio := ⟨3, 5⟩

/-- The number of names that are suggested at most. -/
def maxSuggestions : Nat := 3

/-- Whether a suggestion comes before another one: the more similar first, and of two that are equally
similar the later in code point order. -/
def suggestedBefore (p q : Ratio × String) : Bool :=
  if p.1.le q.1 && q.1.le p.1 then decide (q.2 ≤ p.2) else q.1.le p.1

/-- The names that are close to a word, the most similar ones only, in code point order. -/
def closeNames (word : String) (names : List String) : List String :=
  let rated := names.map fun name => (similarity name.toList word.toList, name)
  let best := ((rated.filter fun r => closeEnough.le r.1).mergeSort suggestedBefore).take maxSuggestions
  (best.map (·.2)).mergeSort fun a b => decide (a ≤ b)

end PatchLint
