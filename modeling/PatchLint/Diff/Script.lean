/-!
# Edit scripts

How to get from one list to another: segments that both have in common and segments in which
something is replaced. `script` finds the longest run that the two lists share, keeps it, and goes on
with what stands in front of it and behind it.

Of several longest runs the one that ends first in the first list wins, and then the one that ends
first in the second list. In a long second list, elements that are too common do not start a run;
they only extend one that has been found.

## Termination

A shared run is not empty and lies within the first list (`longestRun_within`), so both remaining parts
of the first list are shorter.
-/

namespace PatchLint

variable {α : Type} [DecidableEq α]

/-- A part of an edit script. -/
inductive Segment (α : Type) where
  /-- Elements that both lists have. -/
  | same (items : List α)
  /-- Elements of the first list in place of which the second list has others. -/
  | change (removed added : List α)
  deriving DecidableEq, Repr

/-- The part of the first list a segment covers. -/
def Segment.old : Segment α → List α
  | .same items => items
  | .change removed _ => removed

/-- The part of the second list a segment covers. -/
def Segment.new : Segment α → List α
  | .same items => items
  | .change _ added => added

/-! ## Shared runs -/

/-- A run that two lists share: where it starts in each of them, and its length. -/
structure Run where
  old : Nat
  new : Nat
  size : Nat
  deriving DecidableEq, Repr

/-- The length of the common front of two lists whose elements all pass the test. -/
def commonFront (admits : α → Bool) : List α → List α → Nat
  | x :: xs, y :: ys => if x = y && admits x then commonFront admits xs ys + 1 else 0
  | _, _ => 0

/-- Looks for longer runs that end with the last element of `front`, a front of the first list in
reverse. `seen` is the front of the second list passed so far, in reverse. -/
def scanNew (admits : α → Bool) (front seen : List α) (best : Run) : List α → Run
  | [] => best
  | y :: ys =>
    let size := commonFront admits front (y :: seen)
    let best := if best.size < size then ⟨front.length - size, seen.length + 1 - size, size⟩ else best
    scanNew admits front (y :: seen) best ys

/-- Looks for longer runs that end with each element of the first list in turn. -/
def scanOld (admits : α → Bool) (b seen : List α) (best : Run) : List α → Run
  | [] => best
  | x :: xs => scanOld admits b (x :: seen) (scanNew admits (x :: seen) [] best b) xs

/-- A run made longer at both ends by whatever the lists have in common there. -/
def Run.extend (r : Run) (a b : List α) : Run :=
  let back := commonFront (fun _ => true) (a.take r.old).reverse (b.take r.new).reverse
  let forth := commonFront (fun _ => true) (a.drop (r.old + r.size)) (b.drop (r.new + r.size))
  ⟨r.old - back, r.new - back, r.size + back + forth⟩

/-- The longest run of admitted elements, made longer at both ends. -/
def longestRun (admits : α → Bool) (a b : List α) : Run :=
  (scanOld admits b [] ⟨0, 0, 0⟩ a).extend a b

/-! ### A run lies within both lists -/

/-- Whether a run lies within lists of these lengths. -/
def Run.Within (r : Run) (n m : Nat) : Prop := r.old + r.size ≤ n ∧ r.new + r.size ≤ m

theorem commonFront_le_left (admits : α → Bool) (a b : List α) :
    commonFront admits a b ≤ a.length := by
  fun_induction commonFront admits a b with
  | case1 x xs y ys _ ih => simp only [List.length_cons]; omega
  | case2 => omega
  | case3 => omega

theorem commonFront_le_right (admits : α → Bool) (a b : List α) :
    commonFront admits a b ≤ b.length := by
  fun_induction commonFront admits a b with
  | case1 x xs y ys _ ih => simp only [List.length_cons]; omega
  | case2 => omega
  | case3 => omega

theorem scanNew_within (admits : α → Bool) (front seen : List α) (best : Run) (b : List α)
    {n : Nat} (hn : front.length ≤ n) (h : best.Within n (seen.length + b.length)) :
    (scanNew admits front seen best b).Within n (seen.length + b.length) := by
  induction b generalizing seen best with
  | nil => exact h
  | cons y ys ih =>
    have hl := commonFront_le_left admits front (y :: seen)
    have hr := commonFront_le_right admits front (y :: seen)
    have hlen : (y :: seen).length + ys.length = seen.length + (y :: ys).length := by
      simp only [List.length_cons]; omega
    rw [scanNew, ← hlen]
    apply ih
    rw [hlen]
    split
    · simp only [Run.Within, List.length_cons] at hr ⊢
      omega
    · exact h

theorem scanOld_within (admits : α → Bool) (b seen : List α) (best : Run) (a : List α)
    (h : best.Within (seen.length + a.length) b.length) :
    (scanOld admits b seen best a).Within (seen.length + a.length) b.length := by
  induction a generalizing seen best with
  | nil => exact h
  | cons x xs ih =>
    have hlen : (x :: seen).length + xs.length = seen.length + (x :: xs).length := by
      simp only [List.length_cons]; omega
    rw [scanOld, ← hlen]
    apply ih
    rw [hlen]
    have := scanNew_within admits (x :: seen) [] best b
      (n := seen.length + (x :: xs).length) (by simp only [List.length_cons]; omega)
      (by simpa using h)
    simpa using this

theorem Run.extend_within (r : Run) (a b : List α) (h : r.Within a.length b.length) :
    (r.extend a b).Within a.length b.length := by
  obtain ⟨h1, h2⟩ := h
  have hb1 := commonFront_le_left (fun _ => true) (a.take r.old).reverse (b.take r.new).reverse
  have hb2 := commonFront_le_right (fun _ => true) (a.take r.old).reverse (b.take r.new).reverse
  have hf1 := commonFront_le_left (fun _ => true) (a.drop (r.old + r.size)) (b.drop (r.new + r.size))
  have hf2 := commonFront_le_right (fun _ => true) (a.drop (r.old + r.size)) (b.drop (r.new + r.size))
  simp only [List.length_reverse, List.length_take, List.length_drop] at hb1 hb2 hf1 hf2
  simp only [Run.Within, Run.extend]
  omega

theorem longestRun_within (admits : α → Bool) (a b : List α) :
    (longestRun admits a b).Within a.length b.length := by
  apply Run.extend_within
  have := scanOld_within admits b [] ⟨0, 0, 0⟩ a (by simp [Run.Within])
  simpa using this

/-! ## Scripts -/

/-- A change, unless it changes nothing. -/
def changeOf (removed added : List α) : List (Segment α) :=
  if removed.isEmpty && added.isEmpty then [] else [.change removed added]

/-- The segments from `a` to `b`; neighbouring common segments are not yet joined. -/
def rawScript (admits : α → Bool) (a b : List α) : List (Segment α) :=
  match _hr : longestRun admits a b with
  | ⟨_, _, 0⟩ => changeOf a b
  | ⟨i, j, k + 1⟩ =>
    rawScript admits (a.take i) (b.take j)
      ++ .same ((a.drop i).take (k + 1))
      :: rawScript admits (a.drop (i + (k + 1))) (b.drop (j + (k + 1)))
termination_by a.length
decreasing_by
  all_goals
    have hw := (longestRun_within admits a b).1
    simp only [_hr] at hw
    simp only [List.length_take, List.length_drop]
    omega

/-- Puts a segment in front of a script, joining it with a common segment that follows. -/
def consSegment (s : Segment α) (script : List (Segment α)) : List (Segment α) :=
  match s, script with
  | .same xs, .same ys :: rest => .same (xs ++ ys) :: rest
  | s, rest => s :: rest

/-- The number of elements from which on common ones are left out of account. -/
def crowdSize : Nat := 200

/-- Whether an element is too common in a list to start a run: the list is long, and the element
makes up more than one part in a hundred of it, and one more. -/
def tooCommon (b : List α) (x : α) : Bool :=
  crowdSize ≤ b.length && b.length / 100 + 1 < b.count x

/-- The elements that are too common to start a run. -/
def crowd (b : List α) : List α :=
  if b.length < crowdSize then [] else b.eraseDups.filter (tooCommon b)

/-- The edit script from `a` to `b`. -/
def script (a b : List α) : List (Segment α) :=
  let excluded := crowd b
  (rawScript (fun x => !excluded.contains x) a b).foldr consSegment []

end PatchLint
