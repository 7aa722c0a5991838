import PatchLint.Proofs.Diff.Placement

/-!
# The nearest place of a hunk

The place of a hunk is searched from the expected one outward, in both directions at once. The expected place may
be any integer, also one in front of the document or behind it; the search goes as far as the farther end of the
places at which the hunk fits.

* `IsPlace` — the places at which the old lines of a hunk stand, at or behind the floor
* `NoFarther` — which of two places is preferred: the nearer one, and of two that are as near the one in front
* `noFarther_of_searchOutward` — what a search finds is preferred to all places that it has not passed
* `locate_eq_nearest` — the place of a hunk is the preferred one, and there is one if the hunk fits anywhere
-/

namespace PatchLint

/-- Whether some lines stand in a document at a position that is not in front of the floor. -/
def IsPlace (lines needle : List Text) (floor position : Nat) : Prop :=
  floor ≤ position ∧ position + needle.length ≤ lines.length ∧
    ∃ front back, lines = front ++ needle ++ back ∧ front.length = position

/-- Whether a position is preferred to another one, or is the same: it is nearer to the expected one, or as near
and not behind the other one. -/
def NoFarther (expected p q : Int) : Prop :=
  (p - expected).natAbs < (q - expected).natAbs ∨
    (p - expected).natAbs = (q - expected).natAbs ∧ p ≤ q

theorem NoFarther.antisymm {expected p q : Int} (h : NoFarther expected p q)
    (h' : NoFarther expected q p) : p = q := by
  unfold NoFarther at h h'
  omega

variable {lines needle : List Text} {floor : Nat}

/-- A hunk fits at the places of its old lines, and nowhere else. -/
theorem fitsAt_iff_isPlace {position : Nat} :
    fitsAt lines needle floor position = true ↔ IsPlace lines needle floor position := by
  rw [fitsAt_iff]
  constructor
  · rintro ⟨front, back, rfl, hlen, hfloor⟩
    obtain rfl : front.length = position := Int.ofNat.inj hlen
    refine ⟨hfloor, ?_, front, back, rfl, rfl⟩
    simp only [List.length_append]
    omega
  · rintro ⟨hfloor, -, front, back, hlines, rfl⟩
    exact ⟨front, back, hlines, rfl, hfloor⟩

/-- **What a search finds is preferred to all places that it has not passed.** -/
theorem noFarther_of_searchOutward {fits : Int → Bool} {expected found : Int} {distance count : Nat}
    (h : searchOutward fits expected distance count = some found) :
    ∀ q, fits q = true → distance ≤ (q - expected).natAbs → NoFarther expected found q := by
  -- by the distances that are left: one step looks at both places of one distance, so a place that is
  -- nowhere nearer than the step is one of the two, or is left to the other steps
  induction count generalizing distance with
  | zero => cases h
  | succ count ih =>
    intro q hq hdistance
    rw [searchOutward] at h
    split at h
    · cases h
      unfold NoFarther
      omega
    next hfront =>
    split at h
    · cases h
      have hne : q ≠ expected - distance := fun heq => hfront (heq ▸ hq)
      unfold NoFarther
      omega
    next hbehind =>
    have hne : q ≠ expected - distance := fun heq => hfront (heq ▸ hq)
    have hne' : q ≠ expected + distance := fun heq => hbehind (heq ▸ hq)
    exact ih h q hq (by omega)

/-- A position that fits is no negative number. -/
theorem exists_natCast_of_fitsAt {position : Int} (h : fitsAt lines needle floor position = true) :
    ∃ p : Nat, position = p := by
  obtain ⟨front, -, -, hlen, -⟩ := fitsAt_iff.mp h
  exact ⟨front.length, hlen.symm⟩

/-- The place that is found is preferred to all others. -/
theorem noFarther_of_locate {expected : Int} {position : Nat}
    (h : locate lines needle expected floor true = some position) {q : Nat}
    (hq : fitsAt lines needle floor q = true) : NoFarther expected position q := by
  unfold locate at h
  simp only [] at h
  split at h
  · cases h
  split at h
  · next hexpected =>
    obtain ⟨p, rfl⟩ := exists_natCast_of_fitsAt hexpected
    cases h
    unfold NoFarther
    omega
  next hexpected =>
  obtain ⟨found, hfound, hposition⟩ := Option.map_eq_some_iff.mp h
  obtain ⟨p, rfl⟩ := exists_natCast_of_fitsAt (searchOutward_fits hfound)
  obtain rfl : p = position := hposition
  have hne : (q : Int) ≠ expected := fun heq => hexpected (heq ▸ hq)
  exact noFarther_of_searchOutward hfound q hq (by omega)

/-- Without a search a hunk goes to the expected place only. -/
theorem locate_false_eq_some_iff {expected : Int} {position : Nat} :
    locate lines needle expected floor false = some position ↔
      (position : Int) = expected ∧ fitsAt lines needle floor position = true := by
  constructor
  · intro h
    have hfits := fitsAt_of_locate h
    unfold locate at h
    simp only [] at h
    split at h
    · cases h
    split at h
    · next hexpected =>
      obtain ⟨p, rfl⟩ := exists_natCast_of_fitsAt hexpected
      cases h
      exact ⟨rfl, hfits⟩
    · cases h
  · rintro ⟨rfl, hfits⟩
    exact locate_expected false hfits

/-- **A hunk is put at the nearest place at which it fits.** With a search, a place is found if there is one. It
is the one with the least distance to the expected place, which may be any integer, and of two with that distance
the one in front. Without a search, the expected place is taken if the hunk fits there, and no other. -/
theorem locate_eq_nearest (lines needle : List Text) (expected : Int) (floor : Nat) :
    (locate lines needle expected floor true = none ↔ ∀ p, ¬IsPlace lines needle floor p) ∧
    (∀ p, locate lines needle expected floor true = some p ↔
      IsPlace lines needle floor p ∧ ∀ q, IsPlace lines needle floor q → NoFarther expected p q) ∧
    (∀ p, locate lines needle expected floor false = some p ↔
      IsPlace lines needle floor p ∧ (p : Int) = expected) ∧
    (locate lines needle expected floor false = none ↔
      ∀ p, IsPlace lines needle floor p → (p : Int) ≠ expected) := by
  have hnearest : ∀ p, locate lines needle expected floor true = some p →
      IsPlace lines needle floor p ∧ ∀ q, IsPlace lines needle floor q → NoFarther expected p q :=
    fun p h => ⟨fitsAt_iff_isPlace.mp (fitsAt_of_locate h),
      fun q hq => noFarther_of_locate h (fitsAt_iff_isPlace.mpr hq)⟩
  have hexpected : ∀ p, locate lines needle expected floor false = some p ↔
      IsPlace lines needle floor p ∧ (p : Int) = expected := by
    intro p
    rw [locate_false_eq_some_iff, fitsAt_iff_isPlace, and_comm]
  refine ⟨⟨fun h p hp => ?_, fun h => ?_⟩, fun p => ⟨hnearest p, fun ⟨hp, hleast⟩ => ?_⟩, hexpected,
    ⟨fun h p hp heq => ?_, fun h => ?_⟩⟩
  · obtain ⟨found, hfound⟩ := exists_locate expected (fitsAt_iff_isPlace.mpr hp)
    rw [h] at hfound
    cases hfound
  · refine Option.eq_none_iff_forall_ne_some.mpr fun p hp => ?_
    exact h p (hnearest p hp).1
  · -- something is found, and no other place can be as good
    obtain ⟨found, hfound⟩ := exists_locate expected (fitsAt_iff_isPlace.mpr hp)
    obtain ⟨hplace, hbest⟩ := hnearest found hfound
    have hsame : (found : Int) = p := (hbest p hp).antisymm (hleast found hplace)
    rw [hfound, Int.ofNat.inj hsame]
  · have hfound := (hexpected p).mpr ⟨hp, heq⟩
    rw [h] at hfound
    cases hfound
  · refine Option.eq_none_iff_forall_ne_some.mpr fun p hp => ?_
    obtain ⟨hplace, heq⟩ := (hexpected p).mp hp
    exact h p hplace heq

/-- Far behind the document, where two places are in sight, and between two places that are as near. -/
example :
    let lines : List Text := ["a".toList, "b".toList, "a".toList, "c".toList, "a".toList]
    locate lines ["a".toList] 40 1 true = some 4 ∧ locate lines ["a".toList] 3 1 true = some 2 ∧
      locate lines ["a".toList] (-7) 1 true = some 2 ∧ locate lines ["a".toList] 3 1 false = none := by
  decide

end PatchLint
