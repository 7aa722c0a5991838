import PatchLint.Diff.Apply
import PatchLint.Proofs.Diff.Clusters
import PatchLint.Proofs.Diff.Document
import PatchLint.Proofs.Diff.PatchRoundtrip

/-!
# The hunk of a cluster

What a cluster is written as: its hunk is well-formed (`Cluster.hunk_wellFormed`), the sides of the
hunk are the texts of the cluster's entries (`Cluster.sides?_hunk`), and its header names the place of
the cluster (`Cluster.anchor_hunk`). The markers on each side tell whether one of its entries is open.
-/

namespace PatchLint

open Document (Entry isOpen)

/-! ## Body lines -/

/-- The characters in front of body lines, with the roles they give. -/
inductive Tag.Spelled : Char → Tag → Prop where
  | removed : Tag.Spelled '-' .removed
  | added : Tag.Spelled '+' .added
  | context : Tag.Spelled ' ' .context

theorem Tag.Spelled.of_cons {c : Char} {tag : Tag} (h : Tag.Spelled c tag) (t : Text) :
    Tag.of (c :: t) = tag := by
  cases h <;> rfl

theorem Tag.Spelled.known {c : Char} {tag : Tag} (h : Tag.Spelled c tag) : tag ≠ .unknown := by
  cases h <;> decide

theorem Tag.Spelled.ne_newline {c : Char} {tag : Tag} (h : Tag.Spelled c tag) : c ≠ '\n' := by
  cases h <;> decide

theorem Tag.of_openMarker : Tag.of openMarker = .marker := rfl

theorem newline_not_mem_openMarker : '\n' ∉ openMarker := by decide

variable {c : Char} {tag : Tag}

/-- The body lines of entries have known roles. -/
theorem known_of_mem_bodyLines (hc : Tag.Spelled c tag) {es : List Entry} {l : Text}
    (h : l ∈ es.flatMap (bodyLine c)) : Tag.of l ≠ .unknown := by
  obtain ⟨e, -, hl⟩ := List.mem_flatMap.mp h
  rcases List.mem_cons.mp hl with rfl | hl
  · rw [hc.of_cons]
    exact hc.known
  · split at hl
    · cases hl
    · rw [List.mem_singleton.mp hl, Tag.of_openMarker]
      decide

theorem newline_not_mem_bodyLines (hc : Tag.Spelled c tag) {es : List Entry}
    (hes : ∀ e ∈ es, '\n' ∉ e.text) {l : Text} (h : l ∈ es.flatMap (bodyLine c)) : '\n' ∉ l := by
  obtain ⟨e, he, hl⟩ := List.mem_flatMap.mp h
  rcases List.mem_cons.mp hl with rfl | hl
  · rw [List.mem_cons, not_or]
    exact ⟨fun hn => hc.ne_newline hn.symm, hes e he⟩
  · split at hl
    · cases hl
    · rw [List.mem_singleton.mp hl]
      exact newline_not_mem_openMarker

/-- The body lines of entries account for one line each on the sides they belong to. -/
theorem totals_bodyLines (hc : Tag.Spelled c tag) (es : List Entry) :
    oldTotal (es.flatMap (bodyLine c)) = tag.oldCount * es.length ∧
      newTotal (es.flatMap (bodyLine c)) = tag.newCount * es.length := by
  induction es with
  | nil => exact ⟨rfl, rfl⟩
  | cons e es ih =>
    have hmark : oldTotal (bodyLine c e) = tag.oldCount ∧ newTotal (bodyLine c e) = tag.newCount := by
      unfold bodyLine
      rw [oldTotal_cons, newTotal_cons, hc.of_cons]
      split <;> exact ⟨rfl, rfl⟩
    rw [List.flatMap_cons, oldTotal_append, newTotal_append, hmark.1, hmark.2, ih.1, ih.2,
      List.length_cons, Nat.mul_succ, Nat.mul_succ]
    exact ⟨Nat.add_comm _ _, Nat.add_comm _ _⟩

/-- **The body lines of entries are added to the sides they belong to.** -/
theorem sidesFrom_bodyLines (hc : Tag.Spelled c tag) (es : List Entry) :
    ∀ (s : Sides) (previous : Option Tag) (rest : List Text), ∃ previous',
    sidesFrom s previous (es.flatMap (bodyLine c) ++ rest)
      = sidesFrom
          { old := if tag.inOld then s.old ++ es.map Entry.text else s.old
            new := if tag.inNew then s.new ++ es.map Entry.text else s.new
            hasContext := s.hasContext || (tag = .context && !es.isEmpty)
            oldOpen := s.oldOpen || (tag.inOld && isOpen es)
            newOpen := s.newOpen || (tag.inNew && isOpen es) }
          previous' rest := by
  induction es with
  | nil =>
    intro s previous rest
    exact ⟨previous, by simp⟩
  | cons e es ih =>
    intro s previous rest
    -- a line is pushed, and the marker behind an open one refers to it
    have hline : sidesFrom s previous (bodyLine c e ++ (es.flatMap (bodyLine c) ++ rest))
        = sidesFrom
            (if e.ended then s.push tag (c :: e.text)
              else (s.push tag (c :: e.text)).mark (some tag))
            (some tag) (es.flatMap (bodyLine c) ++ rest) := by
      unfold bodyLine
      rw [List.cons_append, sidesFrom, hc.of_cons]
      cases hc <;> cases e.ended <;> simp [sidesFrom, Tag.of_openMarker]
    obtain ⟨previous', hrest⟩ := ih
      (if e.ended then s.push tag (c :: e.text) else (s.push tag (c :: e.text)).mark (some tag))
      (some tag) rest
    refine ⟨previous', ?_⟩
    rw [List.flatMap_cons, List.append_assoc, hline, hrest]
    cases hc <;> cases he : e.ended <;> simp [Sides.push, Sides.mark, Tag.inOld, Tag.inNew, he]

/-! ## Segments -/

/-- Whether a segment shows lines that stay. -/
def Segment.showsContext : Segment Entry → Bool
  | .same items => !items.isEmpty
  | .change _ _ => false

theorem sidesFrom_segments (segments : List (Segment Entry)) :
    ∀ (s : Sides) (previous : Option Tag),
    sidesFrom s previous (segments.flatMap Segment.bodyLines)
      = some
          { old := s.old ++ (segments.flatMap Segment.old).map Entry.text
            new := s.new ++ (segments.flatMap Segment.new).map Entry.text
            hasContext := s.hasContext || segments.any Segment.showsContext
            oldOpen := s.oldOpen || isOpen (segments.flatMap Segment.old)
            newOpen := s.newOpen || isOpen (segments.flatMap Segment.new) } := by
  induction segments with
  | nil =>
    intro s previous
    simp [sidesFrom]
  | cons segment rest ih =>
    intro s previous
    rw [List.flatMap_cons]
    cases segment with
    | same items =>
      obtain ⟨previous', h⟩ := sidesFrom_bodyLines .context items s previous
        (rest.flatMap Segment.bodyLines)
      rw [Segment.bodyLines, h, ih]
      simp [Segment.old, Segment.new, Segment.showsContext, Tag.inOld, Tag.inNew, Bool.or_assoc]
    | change removed added =>
      obtain ⟨previous₁, h₁⟩ := sidesFrom_bodyLines .removed removed s previous
        (added.flatMap (bodyLine '+') ++ rest.flatMap Segment.bodyLines)
      rw [Segment.bodyLines, List.append_assoc, h₁]
      obtain ⟨previous₂, h₂⟩ := sidesFrom_bodyLines .added added
        ⟨s.old ++ removed.map Entry.text, s.new, s.hasContext, s.oldOpen || isOpen removed,
          s.newOpen⟩ previous₁ (rest.flatMap Segment.bodyLines)
      simp only [Tag.inOld, Tag.inNew, reduceCtorEq, decide_false, Bool.false_and, Bool.or_false,
        Bool.true_and, if_true, Bool.false_eq_true, if_false] at h₂ ⊢
      rw [h₂, ih]
      simp [Segment.old, Segment.new, Segment.showsContext, Bool.or_assoc]

theorem totals_segments (segments : List (Segment Entry)) :
    oldTotal (segments.flatMap Segment.bodyLines) = (segments.flatMap Segment.old).length ∧
      newTotal (segments.flatMap Segment.bodyLines) = (segments.flatMap Segment.new).length := by
  induction segments with
  | nil => exact ⟨rfl, rfl⟩
  | cons segment rest ih =>
    rw [List.flatMap_cons, oldTotal_append, newTotal_append, ih.1, ih.2]
    cases segment with
    | same items =>
      rw [Segment.bodyLines, (totals_bodyLines .context items).1,
        (totals_bodyLines .context items).2]
      simp [Segment.old, Segment.new, Tag.oldCount, Tag.newCount, Tag.inOld, Tag.inNew]
    | change removed added =>
      rw [Segment.bodyLines, oldTotal_append, newTotal_append, (totals_bodyLines .removed removed).1,
        (totals_bodyLines .removed removed).2, (totals_bodyLines .added added).1,
        (totals_bodyLines .added added).2]
      simp [Segment.old, Segment.new, Tag.oldCount, Tag.newCount, Tag.inOld, Tag.inNew]

/-- A body line of a segment comes from entries of one of its sides. -/
theorem exists_of_mem_bodyLines {segment : Segment Entry} {l : Text} (h : l ∈ segment.bodyLines) :
    ∃ (c : Char) (tag : Tag) (es : List Entry), Tag.Spelled c tag ∧ l ∈ es.flatMap (bodyLine c) ∧
      ∀ e ∈ es, e ∈ segment.old ∨ e ∈ segment.new := by
  cases segment with
  | same items => exact ⟨' ', .context, items, .context, h, fun _ he => Or.inl he⟩
  | change removed added =>
    rcases List.mem_append.mp h with h | h
    · exact ⟨'-', .removed, removed, .removed, h, fun _ he => Or.inl he⟩
    · exact ⟨'+', .added, added, .added, h, fun _ he => Or.inr he⟩

/-! ## Clusters -/

namespace Cluster

/-- **The hunk of a cluster is well-formed.** -/
theorem hunk_wellFormed {c : Cluster} (hold : ∀ e ∈ c.old, '\n' ∉ e.text)
    (hnew : ∀ e ∈ c.new, '\n' ∉ e.text) : c.hunk.WellFormed where
  known := by
    intro l hl
    obtain ⟨segment, -, hl⟩ := List.mem_flatMap.mp hl
    obtain ⟨ch, tag, es, hc, hl, -⟩ := exists_of_mem_bodyLines hl
    exact known_of_mem_bodyLines hc hl
  oneLine := by
    intro l hl
    obtain ⟨segment, hsegment, hl⟩ := List.mem_flatMap.mp hl
    obtain ⟨ch, tag, es, hc, hl, hes⟩ := exists_of_mem_bodyLines hl
    refine newline_not_mem_bodyLines hc (fun e he => ?_) hl
    rcases hes e he with he | he
    · exact hold e (List.mem_flatMap.mpr ⟨segment, hsegment, he⟩)
    · exact hnew e (List.mem_flatMap.mpr ⟨segment, hsegment, he⟩)
  oldCount := (totals_segments c.segments).1.symm
  newCount := (totals_segments c.segments).2.symm

/-- The sides of a cluster, as texts. -/
def sides (c : Cluster) : Sides where
  old := c.old.map Entry.text
  new := c.new.map Entry.text
  hasContext := c.segments.any Segment.showsContext
  oldOpen := isOpen c.old
  newOpen := isOpen c.new

/-- **The sides of the hunk of a cluster are the texts of its entries.** -/
theorem sides?_hunk {c : Cluster} (hw : c.hunk.WellFormed) : c.hunk.sides? = some c.sides := by
  unfold Hunk.sides?
  rw [hw.body_eq]
  show sidesFrom .empty none (c.segments.flatMap Segment.bodyLines) = _
  rw [sidesFrom_segments]
  simp [Sides.empty, sides, old, new]

/-- The header of the hunk names the place of the cluster. -/
theorem anchor_hunk (c : Cluster) : c.hunk.anchor c.sides = c.oldBefore := by
  unfold Hunk.anchor
  show (if (c.old.map Entry.text).isEmpty then
    ((startNumber c.oldBefore c.old.length : Nat) : Int)
    else ((startNumber c.oldBefore c.old.length : Nat) : Int) - 1) = c.oldBefore
  cases h : c.old with
  | nil => rfl
  | cons e es =>
    simp only [List.map_cons, List.isEmpty_cons, Bool.false_eq_true, if_false, startNumber,
      List.length_cons, Nat.add_eq_zero_iff, Nat.one_ne_zero, and_false]
    omega

end Cluster

end PatchLint
