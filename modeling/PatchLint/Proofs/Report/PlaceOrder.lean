import Mathlib.Data.Prod.Lex
import PatchLint.Proofs.Text.Newlines
import PatchLint.Report.Collection

/-!
# The order of places

A later offset is never shown at an earlier place, whatever the bytes are: they need not be the
encoding of a text, and the offsets may stand inside of a character or outside of the source.

The line counts newlines, so it can only grow. On one line the column counts the characters of a
longer and longer front, decoded with losses. There the point is that a byte more never costs a
character: a unit either ends before the bytes do, and then it stays as it is (`unit_append`), or it
takes all of them, and then it was one character already.

* `length_decodeLossy_append` — more bytes are never fewer characters
* `ofOffset_mono` — the place of an offset, by line and then by column
* `places_ordered` — no finding ends in front of its start
-/

namespace PatchLint

namespace Utf8

/-! ## Units in front of more bytes -/

/-- The bytes that are owed are read in the same way in front of more bytes, unless the bytes end
first. Then all of them are taken. -/
theorem readTail_append (bits left taken lo hi : Nat) (bs more : List UInt8) :
    (readTail bits left taken lo hi (bs ++ more) = readTail bits left taken lo hi bs ∧
        (readTail bits left taken lo hi bs).extra ≤ taken + bs.length) ∨
      readTail bits left taken lo hi bs = .fault .truncated (taken + bs.length) := by
  induction bs generalizing bits left taken lo hi with
  | nil =>
    cases left with
    | zero =>
      rw [readTail_zero, readTail_zero]
      exact Or.inl ⟨rfl, Nat.le_refl _⟩
    | succ left => exact Or.inr rfl
  | cons b bs ih =>
    cases left with
    | zero =>
      rw [readTail_zero, readTail_zero]
      exact Or.inl ⟨rfl, Nat.le_add_right _ _⟩
    | succ left =>
      rw [List.cons_append, readTail, readTail, List.length_cons]
      by_cases hrange : lo ≤ b.toNat ∧ b.toNat ≤ hi
      · rw [if_pos hrange, if_pos hrange, Nat.add_comm bs.length 1, ← Nat.add_assoc]
        exact ih _ _ _ _ _
      · rw [if_neg hrange, if_neg hrange]
        exact Or.inl ⟨rfl, Nat.le_add_right _ _⟩

/-- **A unit is the same in front of more bytes, unless it takes all bytes there are.** -/
theorem unit_append (b : UInt8) (bs more : List UInt8) :
    (unit b (bs ++ more) = unit b bs ∧ (unit b bs).extra ≤ bs.length) ∨
      (unit b bs).extra = bs.length := by
  unfold unit
  cases lead? b.toNat with
  | none => exact Or.inl ⟨rfl, Nat.zero_le _⟩
  | some l =>
    rcases readTail_append l.bits l.following 0 l.lo l.hi bs more with ⟨hsame, hle⟩ | hall
    · rw [Nat.zero_add] at hle
      exact Or.inl ⟨hsame, hle⟩
    · refine Or.inr ?_
      show (readTail l.bits l.following 0 l.lo l.hi bs).extra = bs.length
      rw [hall]
      exact Nat.zero_add _

/-- **More bytes are never fewer characters.** -/
theorem length_decodeLossy_append (bs more : List UInt8) :
    (decodeLossy bs).length ≤ (decodeLossy (bs ++ more)).length := by
  fun_induction decodeLossy bs with
  | case1 => exact Nat.zero_le _
  | case2 b bs ih =>
    rw [List.cons_append, decodeLossy, List.length_cons, List.length_cons]
    refine Nat.succ_le_succ ?_
    rcases unit_append b bs more with ⟨hsame, hle⟩ | hall
    · rw [hsame, List.drop_append_of_le_length hle]
      exact ih
    · -- the unit has taken everything, so it is the only one
      rw [hall, List.drop_length, decodeLossy]
      exact Nat.zero_le _

end Utf8

namespace Location

/-! ## Order -/

/-- A place as a pair that is compared by line and then by column. -/
def key (l : Location) : Nat ×ₗ Nat := toLex (l.line, l.column)

theorem key_le_iff {l m : Location} :
    l.key ≤ m.key ↔ l.line < m.line ∨ l.line = m.line ∧ l.column ≤ m.column :=
  Prod.Lex.toLex_le_toLex

theorem exists_front_eq (source : List UInt8) {a b : Int} (h : a ≤ b) :
    ∃ more, front source b = front source a ++ more := by
  obtain ⟨more, hmore⟩ := List.take_prefix_take_left (l := source) (Int.toNat_le_toNat h)
  exact ⟨more, hmore.symm⟩

/-- **The place of a later offset is no earlier place.** -/
theorem ofOffset_mono (source : List UInt8) {a b : Int} (h : a ≤ b) :
    (ofOffset source a).key ≤ (ofOffset source b).key := by
  obtain ⟨more, hmore⟩ := exists_front_eq source h
  rw [key_le_iff]
  show (front source a).count newlineByte + 1 < (front source b).count newlineByte + 1 ∨
    (front source a).count newlineByte + 1 = (front source b).count newlineByte + 1 ∧
      (Utf8.decodeLossy (lastLine (front source a))).length + 1
        ≤ (Utf8.decodeLossy (lastLine (front source b))).length + 1
  rw [hmore, List.count_append]
  by_cases hnewline : newlineByte ∈ more
  · have hpos : 0 < more.count newlineByte := List.count_pos_iff.mpr hnewline
    exact Or.inl (by omega)
  · refine Or.inr ⟨?_, ?_⟩
    · rw [List.count_eq_zero.mpr hnewline, Nat.add_zero]
    · rw [lastLine_append _ hnewline]
      exact Nat.succ_le_succ (Utf8.length_decodeLossy_append _ _)

end Location

/-- **Places are ordered as the offsets are**, by line and then by column, for all bytes and all
offsets. So a finding that does not end in front of its start in the bytes does not do so in what is
shown either. -/
theorem places_ordered (source : List UInt8) :
    (∀ a b : Int, a ≤ b →
      (Location.ofOffset source a).key ≤ (Location.ofOffset source b).key) ∧
    ∀ (file : String) (d : Diagnostic), d.start ≤ d.stop →
      let place := (locateIn file source d).place
      ∃ endLine endColumn, place.endLine = some endLine ∧ place.endColumn = some endColumn ∧
        toLex (place.line, place.column) ≤ toLex (endLine, endColumn) := by
  refine ⟨fun a b h => Location.ofOffset_mono source h, fun file d hd => ?_⟩
  have hle := Location.key_le_iff.mp (Location.ofOffset_mono source hd)
  refine ⟨_, _, rfl, rfl, Prod.Lex.toLex_le_toLex.mpr ?_⟩
  show ((Location.ofOffset source d.start).line : Int) < (Location.ofOffset source d.stop).line ∨
    ((Location.ofOffset source d.start).line : Int) = (Location.ofOffset source d.stop).line ∧
      ((Location.ofOffset source d.start).column : Int) ≤ (Location.ofOffset source d.stop).column
  omega

/-- Bytes that are no text: a cut character, a newline, a stray byte. From an offset in front of the
source to one inside of the cut character, and for a finding that ends behind the source. -/
theorem places_ordered_broken_bytes :
    let source : List UInt8 := [0xF0, 0x9F, 0x92, 0x0A, 0xE2, 0x41, 0xFF]
    let d : Diagnostic := ⟨"R2", "", 2, 50, .info, false⟩
    ((-3 : Int) ≤ 2 ∧ Location.ofOffset source (-3) = ⟨1, 1⟩ ∧ Location.ofOffset source 2 = ⟨1, 2⟩ ∧
      (Location.ofOffset source (-3)).key ≤ (Location.ofOffset source 2).key) ∧
    (d.start ≤ d.stop ∧ (locateIn "a.js" source d).place = ⟨1, 2, some 2, some 4⟩ ∧
      toLex ((1 : Int), (2 : Int)) ≤ toLex (2, 4)) := by
  intro source d
  obtain ⟨hoffsets, hfindings⟩ := places_ordered source
  have hplace : (locateIn "a.js" source d).place = ⟨1, 2, some 2, some 4⟩ := by decide +kernel
  refine ⟨⟨by decide, by decide +kernel, by decide +kernel, hoffsets (-3) 2 (by decide)⟩, by decide,
    hplace, ?_⟩
  obtain ⟨endLine, endColumn, hline, hcolumn, hle⟩ := hfindings "a.js" d (by decide)
  rw [hplace] at hline hcolumn hle
  cases hline
  cases hcolumn
  exact hle

end PatchLint
