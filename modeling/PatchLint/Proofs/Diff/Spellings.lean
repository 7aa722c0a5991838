import PatchLint.Proofs.Diff.PatchRoundtrip

/-!
# Reading a patch in every spelling

A patch has more than one text: a count of one may be left out of a header, and the last line of the
text may be ended or not. All of them say the patch (`read?_of_hasText`), if its names have no blanks
around them and its hunks are complete; and it is read from them unless one of its numbers has more
digits than are converted (`read_of_hasText`).

`Hunk.Complete` is told by the first characters of the lines alone. It is a case of
`Hunk.WellFormed`, which also knows context lines that have lost their blank; such a line must not
stand at the end of a text that is not ended, where it would be lost.
-/

namespace PatchLint

/-! ## Complete hunks -/

/-- A hunk whose lines are tagged, markers included, and counted by its header. -/
structure Hunk.Complete (h : Hunk) : Prop where
  tagged : ∀ l ∈ h.lines, ∃ c ∈ [' ', '-', '+', '\\'], l.head? = some c
  oneLine : ∀ l ∈ h.lines, '\n' ∉ l
  oldCount : h.oldCount = h.lines.countP fun l => l.head? == some ' ' || l.head? == some '-'
  newCount : h.newCount = h.lines.countP fun l => l.head? == some ' ' || l.head? == some '+'

/-- What the first character of a tagged line says. -/
theorem Tag.of_tagged {c : Char} (h : c ∈ [' ', '-', '+', '\\']) (t : Text) :
    Tag.of (c :: t) ≠ .unknown ∧ (Tag.of (c :: t)).inOld = (c == ' ' || c == '-') ∧
      (Tag.of (c :: t)).inNew = (c == ' ' || c == '+') := by
  simp only [List.mem_cons, List.not_mem_nil, or_false] at h
  rcases h with rfl | rfl | rfl | rfl
  · exact ⟨Tag.noConfusion, rfl, rfl⟩
  · exact ⟨Tag.noConfusion, rfl, rfl⟩
  · exact ⟨Tag.noConfusion, rfl, rfl⟩
  · exact ⟨Tag.noConfusion, rfl, rfl⟩

/-- Tagged lines account for the lines that their first characters put on each side. -/
theorem totals_tagged {ls : List Text}
    (h : ∀ l ∈ ls, ∃ c ∈ [' ', '-', '+', '\\'], l.head? = some c) :
    oldTotal ls = ls.countP (fun l => l.head? == some ' ' || l.head? == some '-') ∧
      newTotal ls = ls.countP (fun l => l.head? == some ' ' || l.head? == some '+') := by
  induction ls with
  | nil => exact ⟨rfl, rfl⟩
  | cons l ls ih =>
    obtain ⟨hold, hnew⟩ := ih fun l' hl' => h l' (List.mem_cons_of_mem _ hl')
    obtain ⟨c, hc, hhead⟩ := h l List.mem_cons_self
    obtain ⟨t, rfl⟩ := List.head?_eq_some_iff.mp hhead
    obtain ⟨-, hinOld, hinNew⟩ := Tag.of_tagged hc t
    rw [oldTotal_cons, newTotal_cons, List.countP_cons, List.countP_cons, hold, hnew, Tag.oldCount,
      Tag.newCount, hinOld, hinNew]
    simp only [List.head?_cons, Option.some_beq_some]
    exact ⟨Nat.add_comm _ _, Nat.add_comm _ _⟩

namespace Hunk.Complete

variable {h : Hunk}

theorem wellFormed (hc : h.Complete) : h.WellFormed where
  known l hl := by
    obtain ⟨c, hmem, hhead⟩ := hc.tagged l hl
    obtain ⟨t, rfl⟩ := List.head?_eq_some_iff.mp hhead
    exact (Tag.of_tagged hmem t).1
  oneLine := hc.oneLine
  oldCount := hc.oldCount.trans (totals_tagged hc.tagged).1.symm
  newCount := hc.newCount.trans (totals_tagged hc.tagged).2.symm

theorem ne_nil_of_mem_lines (hc : h.Complete) {l : Text} (hl : l ∈ h.lines) : l ≠ [] := by
  obtain ⟨c, -, hhead⟩ := hc.tagged l hl
  rintro rfl
  cases hhead

end Hunk.Complete

/-! ## Texts of a patch -/

theorem HunksSpelled.ne_nil_of_mem {hs : List Hunk} {lines : List Text}
    (hspelled : HunksSpelled hs lines) (hc : ∀ h ∈ hs, h.Complete) : ∀ l ∈ lines, l ≠ [] := by
  induction hspelled with
  | nil =>
    intro l hl
    cases hl
  | @cons h hs header lines first rest ih =>
    intro l hl
    rcases List.mem_append.mp hl with hl | hl
    · rcases List.mem_cons.mp hl with rfl | hl
      · rintro rfl
        exact absurd first.startsWith_mark (by decide)
      · exact (hc h List.mem_cons_self).ne_nil_of_mem_lines hl
    · exact ih (fun h' hh' => hc h' (List.mem_cons_of_mem _ hh')) l hl

theorem Patch.Spelled.ne_nil_of_mem {p : Patch} {lines : List Text} (hs : p.Spelled lines)
    (hc : ∀ h ∈ p.hunks, h.Complete) : ∀ l ∈ lines, l ≠ [] := by
  cases hs with
  | lines hunks =>
    intro l hl
    rcases List.mem_cons.mp hl with rfl | hl
    · exact List.cons_ne_nil _ _
    rcases List.mem_cons.mp hl with rfl | hl
    · exact List.cons_ne_nil _ _
    exact hunks.ne_nil_of_mem hc l hl

theorem Patch.Spelled.ne_nil {p : Patch} {lines : List Text} (hs : p.Spelled lines) : lines ≠ [] := by
  cases hs with
  | lines hunks => exact List.cons_ne_nil _ _

/-- The lines of a diff text whose last line is not ended. -/
theorem diffLines_joinWith {ls : List Text} (hne : ls ≠ []) (hline : ∀ l ∈ ls, '\n' ∉ l)
    (hfull : ∀ l ∈ ls, l ≠ []) : diffLines (Text.joinWith ['\n'] ls) = ls := by
  rw [diffLines, Text.pieces_joinWith hne hline]
  -- an empty last piece would be taken for the end of the line before it
  refine if_neg fun hlast => ?_
  exact hfull [] (List.mem_of_getLast? hlast) rfl

/-- The texts of a patch: its lines under some spelling, of which the last is ended or not. -/
inductive Patch.HasText (p : Patch) : Text → Prop where
  | ended {lines : List Text} (h : p.Spelled lines) : p.HasText (lines.flatMap (· ++ ['\n']))
  | unended {lines : List Text} (h : p.Spelled lines) : p.HasText (Text.joinWith ['\n'] lines)

theorem Patch.HasText.exists_spelled {p : Patch} {t : Text} (ht : p.HasText t)
    (hold : '\n' ∉ p.oldName) (hnew : '\n' ∉ p.newName) (hc : ∀ h ∈ p.hunks, h.Complete) :
    ∃ lines, p.Spelled lines ∧ diffLines t = lines := by
  have hw : ∀ h ∈ p.hunks, h.WellFormed := fun h hh => (hc h hh).wellFormed
  cases ht with
  | ended hs => exact ⟨_, hs, diffLines_flatMap_ended (hs.newline_not_mem hold hnew hw)⟩
  | unended hs =>
    exact ⟨_, hs, diffLines_joinWith hs.ne_nil (hs.newline_not_mem hold hnew hw) (hs.ne_nil_of_mem hc)⟩

/-- **Each text of a patch says the patch.** Its names are kept if they have no blanks around them. -/
theorem read?_of_hasText {p : Patch} {t : Text} (ht : p.HasText t) (hne : p.hunks ≠ [])
    (hold : '\n' ∉ p.oldName ∧ Text.strip p.oldName = p.oldName)
    (hnew : '\n' ∉ p.newName ∧ Text.strip p.newName = p.newName)
    (hc : ∀ h ∈ p.hunks, h.Complete) : Patch.read? t = some p := by
  obtain ⟨lines, hs, hlines⟩ := ht.exists_spelled hold.1 hnew.1 hc
  have hread := hs.read?_eq hlines hne fun h hh => (hc h hh).wellFormed
  rw [hread, hold.2, hnew.2]

/-- **A patch is read from each of its texts, unless a number in it is too long.** It is read exactly if
each of its numbers is short enough, and otherwise the reading fails. The body of each hunk is all of its
lines. -/
theorem read_of_hasText {p : Patch} {t : Text} (ht : p.HasText t) (hne : p.hunks ≠ [])
    (hold : '\n' ∉ p.oldName ∧ Text.strip p.oldName = p.oldName)
    (hnew : '\n' ∉ p.newName ∧ Text.strip p.newName = p.newName)
    (hc : ∀ h ∈ p.hunks, h.Complete) :
    (Patch.read t = .ok (some p) ↔ ∀ h ∈ p.hunks, ∀ n ∈ h.numbers, n < Text.powerOfTen Text.digitLimit) ∧
      (Patch.read t = .ok (some p) ∨ ∃ fault, Patch.read t = .error fault) ∧
      ∀ h ∈ p.hunks, h.body = h.lines := by
  have hw : ∀ h ∈ p.hunks, h.WellFormed := fun h hh => (hc h hh).wellFormed
  have hsays := read?_of_hasText ht hne hold hnew hc
  obtain ⟨lines, hs, hlines⟩ := ht.exists_spelled hold.1 hnew.1 hc
  refine ⟨?_, ?_, fun h hh => (hw h hh).body_eq⟩
  · rw [Patch.read, ifLegible_eq_ok_iff, and_iff_left hsays, hs.overlongNumber?_eq_none_iff hlines hw]
  · cases hfault : overlongNumber? t with
    | none => exact Or.inl (ifLegible_eq_ok_iff.mpr ⟨hfault, hsays⟩)
    | some fault => exact Or.inr ⟨fault, ifLegible_eq_error_iff.mpr hfault⟩

/-- A patch whose names and lines look like other parts of a patch. -/
def disguisedPatch : Patch where
  oldName := "--- a".toList
  newName := "@@ b".toList
  hunks :=
    [⟨1, 2, 1, 2, ["--- x", "\\ between", "+++ y", " @@ -1 +1 @@"].map String.toList⟩,
     ⟨9, 1, 9, 0, ["-z"].map String.toList⟩,
     ⟨12, 1, 11, 1, [" k", "\\ behind"].map String.toList⟩]

/-- A text of it. The second hunk leaves a count of one out, the third one writes it. -/
def disguisedText : Text :=
  ("--- --- a\n+++ @@ b\n@@ -1,2 +1,2 @@\n--- x\n\\ between\n+++ y\n @@ -1 +1 @@\n@@ -9 +9,0 @@\n-z\n"
    ++ "@@ -12,1 +11,1 @@\n k\n\\ behind").toList

theorem read_of_hasText_disguised :
    disguisedPatch.HasText disguisedText ∧ (∀ h ∈ disguisedPatch.hunks, h.Complete) ∧
      Patch.read disguisedText = .ok (some disguisedPatch) ∧
      disguisedPatch.hunks.map Hunk.body = disguisedPatch.hunks.map Hunk.lines := by
  have htext : disguisedPatch.HasText disguisedText := by
    have h : disguisedPatch.HasText _ :=
      .unended (.lines (.cons (.ranges (.full 2) (.full 2)) (.cons (.ranges .short (.full 0))
        (.cons (.ranges (.full 1) (.full 1)) .nil))))
    refine (?_ : _ = disguisedText) ▸ h
    decide +kernel
  have htagged : ∀ h ∈ disguisedPatch.hunks, ∀ l ∈ h.lines,
      ∃ c ∈ [' ', '-', '+', '\\'], l.head? = some c := by simp [disguisedPatch]
  have hc : ∀ h ∈ disguisedPatch.hunks, h.Complete := by
    intro h hh
    refine ⟨htagged h hh, ?_, ?_, ?_⟩
    all_goals revert h
    all_goals decide +kernel
  obtain ⟨hread, -, hbody⟩ := read_of_hasText htext (List.cons_ne_nil _ _)
    ⟨by decide, by decide⟩ ⟨by decide, by decide⟩ hc
  have hshort : ∀ h ∈ disguisedPatch.hunks, ∀ n ∈ h.numbers, n < Text.powerOfTen Text.digitLimit := by
    intro h hh n hn
    have hsmall : ∀ h ∈ disguisedPatch.hunks, ∀ n ∈ h.numbers, (Text.ofNat n).length ≤ 2 := by
      decide +kernel
    refine (Text.length_ofNat_le_iff (by decide)).mp (Nat.le_trans (hsmall h hh n hn) (by decide))
  exact ⟨htext, hc, hread.mpr hshort, List.map_congr_left hbody⟩

/-- A patch at a line whose number has one digit more than are converted. -/
def farPatch : Patch := ⟨[], [], [⟨Text.powerOfTen Text.digitLimit, 1, 1, 0, ["-a".toList]⟩]⟩

theorem complete_of_mem_farPatch : ∀ h ∈ farPatch.hunks, h.Complete := by
  intro h hh
  obtain rfl := List.mem_singleton.mp hh
  exact ⟨by simp, by simp, rfl, rfl⟩

theorem exists_overlongNumber?_farPatch : ∃ fault, overlongNumber? farPatch.render = some fault := by
  have hw : ∀ h ∈ farPatch.hunks, h.WellFormed := fun h hh => (complete_of_mem_farPatch h hh).wellFormed
  refine Option.ne_none_iff_exists'.mp fun hnone => ?_
  rw [farPatch.spelled_renderLines.overlongNumber?_eq_none_iff
    (farPatch.diffLines_render (by decide) (by decide) hw) hw] at hnone
  exact Nat.lt_irrefl _ (hnone _ List.mem_cons_self _ List.mem_cons_self)

/-- A hunk at such a line cannot be read. -/
theorem not_read_of_hasText_overlong :
    ¬∀ (p : Patch) (t : Text), p.HasText t → p.hunks ≠ [] →
      ('\n' ∉ p.oldName ∧ Text.strip p.oldName = p.oldName) →
      ('\n' ∉ p.newName ∧ Text.strip p.newName = p.newName) → (∀ h ∈ p.hunks, h.Complete) →
      Patch.read t = .ok (some p) := by
  intro h
  have hread := h farPatch farPatch.render (.ended farPatch.spelled_renderLines) (List.cons_ne_nil _ _)
    ⟨by decide, by decide⟩ ⟨by decide, by decide⟩ complete_of_mem_farPatch
  obtain ⟨fault, hfault⟩ := exists_overlongNumber?_farPatch
  rw [Patch.read, ifLegible_eq_ok_iff, hfault] at hread
  exact absurd hread.1 nofun

end PatchLint
