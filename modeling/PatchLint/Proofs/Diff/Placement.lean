import PatchLint.Diff.Apply

/-!
# Where hunks are put

Applying a patch puts its hunks into the document one after another, each behind the one before it.
So the document is cut, from the front to the back, into lines that stay and the old lines of the
hunks, and in the result each hunk has its new lines in the place of its old ones.

* `fitsAt_iff` — a hunk fits where its old lines stand, at or behind the floor
* `exists_locate` — a search finds a place if there is one
* `Progress.apply_at` — a hunk that fits where its header says is put there
* `Progress.exists_placed` — what a run of hunks does to the lines behind the floor
* `exists_placed_of_applyDiff?` — what a diff that applies does to a text

The invariant of a run is that the lines in front of the floor are finished, and the lines behind it
are lines of the original document that no hunk has touched.
-/

namespace PatchLint

/-! ## Finding the place -/

/-- **A hunk fits where its old lines stand,** at or behind the floor. -/
theorem fitsAt_iff {lines needle : List Text} {floor : Nat} {position : Int} :
    fitsAt lines needle floor position = true ↔
      ∃ front back, lines = front ++ needle ++ back ∧ (front.length : Int) = position ∧
        floor ≤ front.length := by
  unfold fitsAt occursAt
  simp only [Bool.and_eq_true, decide_eq_true_eq, beq_iff_eq]
  constructor
  · rintro ⟨⟨hfloor, hroom⟩, hocc⟩
    refine ⟨lines.take position.toNat, lines.drop (position.toNat + needle.length), ?_, ?_, ?_⟩
    · conv => rhs; rw [← hocc]
      rw [List.length_take, List.length_drop, Nat.min_eq_left (by omega), ← List.drop_drop,
        List.append_assoc, List.take_append_drop, List.take_append_drop]
    · rw [List.length_take]
      omega
    · rw [List.length_take]
      omega
  · rintro ⟨front, back, rfl, rfl, hfloor⟩
    refine ⟨⟨by omega, ?_⟩, ?_⟩
    · simp only [List.length_append]
      omega
    · rw [Int.toNat_natCast, List.append_assoc, List.drop_left, List.take_left]

theorem searchOutward_fits {fits : Int → Bool} {expected position : Int} {distance count : Nat}
    (h : searchOutward fits expected distance count = some position) : fits position = true := by
  induction count generalizing distance with
  | zero => cases h
  | succ count ih =>
    rw [searchOutward] at h
    split at h
    · next hf => exact Option.some.inj h ▸ hf
    split at h
    · next hf => exact Option.some.inj h ▸ hf
    · exact ih h

/-- A hunk is put only where it fits. -/
theorem fitsAt_of_locate {lines needle : List Text} {expected : Int} {floor position : Nat}
    {search : Bool} (h : locate lines needle expected floor search = some position) :
    fitsAt lines needle floor position = true := by
  have hfits {found : Int} (hf : fitsAt lines needle floor found = true) :
      fitsAt lines needle floor (found.toNat : Int) = true := by
    obtain ⟨front, back, hlines, rfl, hfloor⟩ := fitsAt_iff.mp hf
    exact hf
  unfold locate at h
  simp only [] at h
  split at h
  · cases h
  split at h
  · next hf => exact Option.some.inj h ▸ hfits hf
  split at h
  · obtain ⟨found, hfound, rfl⟩ := Option.map_eq_some_iff.mp h
    exact hfits (searchOutward_fits hfound)
  · cases h

/-- A hunk that fits at the expected place is put there. -/
theorem locate_expected {lines needle : List Text} {expected : Int} {floor : Nat} (search : Bool)
    (h : fitsAt lines needle floor expected = true) :
    locate lines needle expected floor search = some expected.toNat := by
  obtain ⟨front, back, rfl, rfl, hfloor⟩ := fitsAt_iff.mp h
  unfold locate
  simp only []
  rw [if_neg, if_pos h]
  simp only [List.length_append]
  omega

/-- A search outward finds a place if there is one within its reach. -/
theorem exists_searchOutward {fits : Int → Bool} {expected position : Int}
    (hfits : fits position = true) {distance count : Nat}
    (hnear : distance ≤ (position - expected).natAbs)
    (hfar : (position - expected).natAbs < distance + count) :
    ∃ found, searchOutward fits expected distance count = some found := by
  induction count generalizing distance with
  | zero => omega
  | succ count ih =>
    rw [searchOutward]
    by_cases hhere : distance = (position - expected).natAbs
    · have hside : position = expected - distance ∨ position = expected + distance := by omega
      rcases hside with hside | hside
      · rw [if_pos (hside ▸ hfits)]
        exact ⟨_, rfl⟩
      · split
        · exact ⟨_, rfl⟩
        · rw [if_pos (hside ▸ hfits)]
          exact ⟨_, rfl⟩
    · split
      · exact ⟨_, rfl⟩
      split
      · exact ⟨_, rfl⟩
      · exact ih (by omega) (by omega)

/-- **A search misses no place.** -/
theorem exists_locate {lines needle : List Text} {floor position : Nat} (expected : Int)
    (hfits : fitsAt lines needle floor position = true) :
    ∃ found, locate lines needle expected floor true = some found := by
  obtain ⟨front, back, hlines, hlen, hfloor⟩ := fitsAt_iff.mp hfits
  have hlength := congrArg List.length hlines
  simp only [List.length_append] at hlength
  unfold locate
  simp only []
  rw [if_neg (by omega)]
  split
  · exact ⟨_, rfl⟩
  · next hexpected =>
    have hne : (position : Int) ≠ expected := fun heq => hexpected (heq ▸ hfits)
    -- the search reaches from the floor to the last place that leaves room for the lines
    have hreach : (position - expected : Int).natAbs
        < 1 + (max (expected - floor) ((lines.length : Int) - needle.length - expected)).toNat := by
      omega
    obtain ⟨found, hfound⟩ := exists_searchOutward hfits (by omega) hreach
    exact ⟨found.toNat, by rw [if_pos trivial, hfound]; rfl⟩

/-- A hunk that may be searched for and fits at one place only is put there. -/
theorem locate_of_unique {lines needle : List Text} {floor position : Nat} (expected : Int)
    (hfits : fitsAt lines needle floor position = true)
    (hunique : ∀ n : Nat, fitsAt lines needle floor n = true → n = position) :
    locate lines needle expected floor true = some position := by
  obtain ⟨found, hfound⟩ := exists_locate expected hfits
  rw [hfound, hunique found (fitsAt_of_locate hfound)]

/-! ## One hunk -/

theorem splice_append (front old back new : List Text) :
    splice (front ++ old ++ back) front.length old.length new = front ++ new ++ back := by
  rw [splice, ← List.length_append, List.drop_left, List.append_assoc front old, List.take_left]

namespace Progress

/-- Putting a hunk where its old lines stand replaces them. -/
theorem lines_advance {p : Progress} {sides : Sides} {front back : List Text} (h : Hunk)
    (hlines : p.document.lines = front ++ sides.old ++ back) :
    (p.advance h sides front.length).document.lines = front ++ sides.new ++ back := by
  show splice p.document.lines front.length sides.old.length sides.new = _
  rw [hlines, splice_append]

/-- A hunk that fits where its header says is put there. -/
theorem apply_at {p : Progress} {h : Hunk} {sides : Sides} {front back : List Text} (index : Nat)
    (hsides : h.sides? = some sides) (hlines : p.document.lines = front ++ sides.old ++ back)
    (hexpected : h.anchor sides + p.shift = front.length) (hfloor : p.floor ≤ front.length) :
    p.apply index h = .ok (p.advance h sides front.length) := by
  have hfits : fitsAt p.document.lines sides.old p.floor (h.anchor sides + p.shift) = true :=
    fitsAt_iff.mpr ⟨front, back, hlines, hexpected.symm, hfloor⟩
  simp only [Progress.apply, hsides]
  rw [locate_expected sides.hasContext hfits, hexpected]
  rfl

/-- A place behind the finished lines leaves a gap between them and itself. -/
theorem exists_gap {done left front rest : List Text} (h : done ++ left = front ++ rest)
    (hle : done.length ≤ front.length) : ∃ gap, front = done ++ gap ∧ left = gap ++ rest := by
  have hdone : done <+: front ++ rest := ⟨left, h⟩
  obtain ⟨gap, rfl⟩ := List.prefix_of_prefix_length_le hdone (List.prefix_append front rest) hle
  rw [List.append_assoc] at h
  exact ⟨gap, rfl, List.append_cancel_left h⟩

/-- **What one hunk does.** It is put where it has been located, behind the finished lines: a gap of lines
stays as it is, and the old lines of the hunk give way to its new ones. -/
theorem exists_step {p q : Progress} {h : Hunk} {index : Nat} {done left : List Text}
    (hok : p.apply index h = .ok q) (hlines : p.document.lines = done ++ left)
    (hfloor : p.floor = done.length) :
    ∃ sides gap back, h.sides? = some sides ∧
      locate p.document.lines sides.old (h.anchor sides + p.shift) p.floor sides.hasContext
        = some (done ++ gap).length ∧
      left = gap ++ (sides.old ++ back) ∧ q = p.advance h sides (done ++ gap).length ∧
      q.document.lines = done ++ gap ++ sides.new ++ back := by
  unfold Progress.apply at hok
  split at hok
  · cases hok
  · next sides hsides =>
    split at hok
    · cases hok
    · next position hpos =>
      obtain ⟨front, back, hcut, hlen, hle⟩ := fitsAt_iff.mp (fitsAt_of_locate hpos)
      obtain rfl : front.length = position := Int.ofNat.inj hlen
      have hresult := lines_advance h hcut
      rw [hlines, List.append_assoc] at hcut
      -- the place is not in front of the floor, so what lies between has not been touched
      obtain ⟨gap, rfl, hleft⟩ := exists_gap hcut (hfloor ▸ hle)
      cases hok
      exact ⟨sides, gap, back, hsides, hpos, hleft, rfl, hresult⟩

end Progress

/-! ## Many hunks -/

/-- A hunk in its place: its sides, and the lines between it and the next hunk. -/
structure Placed where
  sides : Sides
  behind : List Text
  deriving DecidableEq, Repr

/-- The lines of a document in which hunks have their places, before the change. -/
def linesBefore (front : List Text) (hunks : List Placed) : List Text :=
  front ++ hunks.flatMap fun h => h.sides.old ++ h.behind

/-- The lines of a document in which hunks have their places, after the change. -/
def linesAfter (front : List Text) (hunks : List Placed) : List Text :=
  front ++ hunks.flatMap fun h => h.sides.new ++ h.behind

/-- Whether the last line is ended after some hunks. The last hunk that says something about it
decides: the line is open if the new side says so, and ended if only the old side does. -/
def endedAfterAll (before : Bool) (hunks : List Sides) : Bool :=
  match hunks.reverse.find? fun s => s.oldOpen || s.newOpen with
  | none => before
  | some s => !s.newOpen

theorem foldl_endedAfter (before : Bool) (hunks : List Sides) :
    hunks.foldl (fun ended s => s.endedAfter ended) before = endedAfterAll before hunks := by
  induction hunks generalizing before with
  | nil => rfl
  | cons s rest ih =>
    rw [List.foldl_cons, ih]
    unfold endedAfterAll
    rw [List.reverse_cons, List.find?_append]
    cases rest.reverse.find? fun s => s.oldOpen || s.newOpen with
    | some t => rfl
    | none =>
      rcases s with ⟨old, new, hasContext, _ | _, _ | _⟩ <;> rfl

/-- **What a run of hunks does.** The lines in front of the floor stay, and behind it the hunks are put
one after another. -/
theorem Progress.exists_placed {hunks : List Hunk} :
    ∀ {p q : Progress} {index : Nat} {done left : List Text},
    p.applyAll index hunks = .ok q → p.document.lines = done ++ left → p.floor = done.length →
    ∃ front placed, hunks.mapM Hunk.sides? = some (placed.map Placed.sides) ∧
      left = linesBefore front placed ∧
      q.document.lines = done ++ linesAfter front placed ∧
      q.document.ended = endedAfterAll p.document.ended (placed.map Placed.sides) := by
  induction hunks with
  | nil =>
    intro p q index done left hok hlines _
    cases hok
    refine ⟨left, [], rfl, ?_, ?_, rfl⟩
    · rw [linesBefore, List.flatMap_nil, List.append_nil]
    · rw [linesAfter, List.flatMap_nil, List.append_nil, hlines]
  | cons h hs ih =>
    intro p q index done left hok hlines hfloor
    rw [Progress.applyAll] at hok
    split at hok
    · cases hok
    · next p' hstep =>
      obtain ⟨sides, gap, back, hsides, -, hleft, rfl, hcut⟩ :=
        Progress.exists_step hstep hlines hfloor
      obtain ⟨behind, placed, hmap, hback, hresult, hended⟩ := ih hok hcut List.length_append.symm
      refine ⟨gap, ⟨sides, behind⟩ :: placed, ?_, ?_, ?_, ?_⟩
      · rw [List.mapM_cons, hsides, hmap]
        rfl
      · rw [hleft, hback]
        simp [linesBefore]
      · rw [hresult]
        simp [linesAfter]
      · rw [hended, ← foldl_endedAfter, ← foldl_endedAfter]
        rfl

/-! ## Texts -/

/-- **A diff that applies loses and duplicates nothing.** The lines of the text are cut into lines
that stay and the old sides of the hunks, in their order, and the result has the new sides in their
places. -/
theorem exists_placed_of_applyDiff? {before diff after : Text}
    (h : applyDiff? before diff = some after) :
    ∃ patch front placed, Patch.read? diff = some patch ∧
      patch.hunks.mapM Hunk.sides? = some (placed.map Placed.sides) ∧
      (Document.ofText before).lines = linesBefore front placed ∧
      after = Document.toText ⟨linesAfter front placed,
        endedAfterAll (Document.ofText before).ended (placed.map Placed.sides)⟩ := by
  unfold applyDiff? applyDiff at h
  split at h
  · cases h
  · next patch hread =>
    unfold Patch.apply at h
    split at h
    · cases h
    · next q hok =>
      have hstart : (Document.ofText before).lines = [] ++ (Document.ofText before).lines := rfl
      obtain ⟨front, placed, hmap, hbefore, hlines, hended⟩ :=
        Progress.exists_placed hok hstart rfl
      refine ⟨patch, front, placed, hread, hmap, hbefore, ?_⟩
      rw [List.nil_append] at hlines
      rw [← hlines, ← hended]
      exact (Option.some.inj h).symm

/-- Two hunks, the first of which is found one line further down than its header says. -/
theorem exists_placed_moved_hunks :
    applyDiff? "x\na\nb\nc\nd".toList
        ("@@ -1,2 +1,2 @@\n a\n-b\n+e\n@@ -4 +4 @@\n-d\n\\ No newline at end of file\n+f\n").toList
        = some "x\na\ne\nc\nf\n".toList ∧
      ∃ patch front placed,
        Patch.read? ("@@ -1,2 +1,2 @@\n a\n-b\n+e\n@@ -4 +4 @@\n-d\n"
          ++ "\\ No newline at end of file\n+f\n").toList = some patch ∧
        patch.hunks.mapM Hunk.sides? = some (placed.map Placed.sides) ∧
        (Document.ofText "x\na\nb\nc\nd".toList).lines = linesBefore front placed ∧
        "x\na\ne\nc\nf\n".toList = Document.toText ⟨linesAfter front placed,
          endedAfterAll (Document.ofText "x\na\nb\nc\nd".toList).ended
            (placed.map Placed.sides)⟩ := by
  have h : applyDiff? "x\na\nb\nc\nd".toList
      ("@@ -1,2 +1,2 @@\n a\n-b\n+e\n@@ -4 +4 @@\n-d\n\\ No newline at end of file\n+f\n").toList
      = some "x\na\ne\nc\nf\n".toList := by decide +kernel
  exact ⟨h, exists_placed_of_applyDiff? h⟩

end PatchLint
