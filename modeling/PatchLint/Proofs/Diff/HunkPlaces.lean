import PatchLint.Proofs.Diff.Placement

/-!
# The places of hunks

Where a hunk is put is found out while the hunks before it are applied, in a document that they have
changed. `Progress.hunkPlaces` goes through the hunks in the same way and tells their places in the original
document: no line between two hunks is touched, so a hunk is as far behind the one before it as it was there.

* `Progress.exists_hunkPlaces` — in a run of hunks that goes through, each of them stands in the original
  document at its place, the lines behind the last one stay, and the markers decide about the end
* `exists_diffPlaces?` — the same for a diff that applies to a text
-/

namespace PatchLint

/-! ## Places -/

/-- A hunk that has been put into a document: its sides, and the line of the original document, counted
from zero, at which its old side stands. -/
structure HunkPlace where
  hunk : Hunk
  sides : Sides
  line : Nat
  deriving DecidableEq, Repr

namespace HunkPlace

/-- The line behind the old side. -/
def stop (x : HunkPlace) : Nat := x.line + x.sides.old.length

/-- A place at which the old side of the hunk does stand. -/
structure StandsIn (x : HunkPlace) (lines : List Text) : Prop where
  sides : x.hunk.sides? = some x.sides
  cut : ∃ front back, lines = front ++ x.sides.old ++ back ∧ front.length = x.line

end HunkPlace

/-- The places of hunks, when `passed` lines of the original document are in front of the floor. -/
def Progress.hunkPlaces (p : Progress) (passed : Nat) : List Hunk → Option (List HunkPlace)
  | [] => some []
  | h :: hs => do
    let sides ← h.sides?
    let position ←
      locate p.document.lines sides.old (h.anchor sides + p.shift) p.floor sides.hasContext
    let place : HunkPlace := ⟨h, sides, passed + (position - p.floor)⟩
    let rest ← (p.advance h sides position).hunkPlaces place.stop hs
    pure (place :: rest)

/-- The places of the hunks of a diff text. -/
def diffPlaces? (before diff : Text) : Option (List HunkPlace) :=
  (Patch.read? diff).bind fun p => Progress.hunkPlaces ⟨.ofText before, 0, 0⟩ 0 p.hunks

/-! ## A run of hunks -/

namespace Progress

/-- **What a run of hunks does to the original document.** The lines `passed` of it are in front of the
floor, the lines `left` behind it. -/
theorem exists_hunkPlaces {hunks : List Hunk} :
    ∀ {p q : Progress} {index : Nat} {done passed left : List Text},
    p.applyAll index hunks = .ok q → p.document.lines = done ++ left → p.floor = done.length →
    ∃ places, p.hunkPlaces passed.length hunks = some places ∧ places.map HunkPlace.hunk = hunks ∧
      (∀ x ∈ places, x.StandsIn (passed ++ left)) ∧
      (∃ finished, q.document.lines = done ++ finished
          ++ (passed ++ left).drop ((places.map HunkPlace.stop).getLast?.getD passed.length) ∧
        ∀ x ∈ places, x.sides.new.Sublist finished) ∧
      q.document.ended = endedAfterAll p.document.ended (places.map HunkPlace.sides) := by
  induction hunks with
  | nil =>
    intro p q index done passed left hok hlines _
    cases hok
    refine ⟨[], rfl, rfl, by simp, ⟨[], ?_, by simp⟩, rfl⟩
    simp [hlines]
  | cons h hs ih =>
    intro p q index done passed left hok hlines hfloor
    rw [Progress.applyAll] at hok
    split at hok
    · cases hok
    · next p' hstep =>
      obtain ⟨sides, gap, back, hsides, hlocate, rfl, rfl, hcut⟩ :=
        Progress.exists_step hstep hlines hfloor
      have hwhole : passed ++ (gap ++ (sides.old ++ back)) = passed ++ gap ++ sides.old ++ back := by
        simp only [List.append_assoc]
      have hline : passed.length + ((done ++ gap).length - p.floor) = (passed ++ gap).length := by
        rw [hfloor]
        simp only [List.length_append]
        omega
      obtain ⟨places, hplaces, hhunks, hstand, ⟨finished, hfinished, hnew⟩, hended⟩ :=
        @ih _ _ _ _ (passed ++ gap ++ sides.old) _ hok hcut List.length_append.symm
      have hstop : (passed ++ gap ++ sides.old).length
          = passed.length + ((done ++ gap).length - p.floor) + sides.old.length := by
        rw [hline, List.length_append]
      rw [hstop] at hplaces hfinished
      rw [hwhole]
      refine ⟨⟨h, sides, passed.length + ((done ++ gap).length - p.floor)⟩ :: places, ?_, ?_, ?_,
        ⟨gap ++ sides.new ++ finished, ?_, List.forall_mem_cons.mpr ⟨?_, ?_⟩⟩, ?_⟩
      · rw [hunkPlaces, hsides, Option.bind_eq_bind, Option.bind_some, hlocate, Option.bind_eq_bind,
          Option.bind_some]
        simp only [HunkPlace.stop, hplaces]
        rfl
      · rw [List.map_cons, hhunks]
      · refine List.forall_mem_cons.mpr ⟨⟨hsides, passed ++ gap, back, rfl, hline.symm⟩, hstand⟩
      · have hfront : done ++ gap ++ sides.new ++ finished = done ++ (gap ++ sides.new ++ finished) := by
          simp only [List.append_assoc]
        rw [List.map_cons, List.getLast?_cons, Option.getD_some, hfinished, hfront]
        rfl
      · exact (List.sublist_append_right gap sides.new).trans (List.sublist_append_left _ finished)
      · exact fun x hx => (hnew x hx).trans (List.sublist_append_right _ finished)
      · rw [hended, List.map_cons, ← foldl_endedAfter, ← foldl_endedAfter]
        rfl

end Progress

/-! ## Texts -/

/-- **What a diff that applies does to a text.** -/
theorem exists_diffPlaces? {before diff after : Text} (h : applyDiff? before diff = some after) :
    ∃ patch places, Patch.read? diff = some patch ∧ diffPlaces? before diff = some places ∧
      places.map HunkPlace.hunk = patch.hunks ∧
      (∀ x ∈ places, x.StandsIn (Document.ofText before).lines) ∧
      ∃ finished, (∀ x ∈ places, x.sides.new.Sublist finished) ∧ after = Document.toText
        ⟨finished ++ (Document.ofText before).lines.drop ((places.map HunkPlace.stop).getLast?.getD 0),
          endedAfterAll (Document.ofText before).ended (places.map HunkPlace.sides)⟩ := by
  unfold applyDiff? applyDiff at h
  split at h
  · cases h
  · next patch hread =>
    unfold Patch.apply at h
    split at h
    · cases h
    · next q hok =>
      have hstart : (Document.ofText before).lines = [] ++ (Document.ofText before).lines := rfl
      obtain ⟨places, hplaces, hhunks, hstand, ⟨finished, hfinished, hnew⟩, hended⟩ :=
        @Progress.exists_hunkPlaces _ _ _ _ _ [] _ hok hstart rfl
      refine ⟨patch, places, hread, ?_, hhunks, hstand, finished, hnew, ?_⟩
      · rw [diffPlaces?, hread]
        exact hplaces
      · rw [List.nil_append, List.nil_append, List.length_nil] at hfinished
        rw [← hfinished, ← hended]
        exact (Option.some.inj h).symm

end PatchLint
