import PatchLint.Files.Glob

/-!
# What a simple pattern matches

A simple pattern is read as items, and the items are matched against a text. Here are the patterns whose
meaning is short to say.

* `itemsMatch_star_iff` — a star stands for any text, so what follows it matches an end
* `readGlob_of_isLiteral`, `simpleMatch_of_isLiteral` — a pattern without special characters matches itself
* `simpleMatch_star_iff` — a star in front of such a pattern matches the texts that end with it
* `simpleMatch_of_nil` — a pattern that matches the empty text matches every text, unless it is empty
-/

namespace PatchLint

theorem mem_suffixes {s t : Text} : s ∈ suffixes t ↔ s <:+ t := by
  induction t with
  | nil => simp [suffixes]
  | cons c t ih => rw [suffixes, List.mem_cons, ih, List.suffix_cons_iff]

/-! ## Items -/

/-- **What follows a star matches an end of the text.** -/
theorem itemsMatch_star_iff {items : List GlobItem} {t : Text} :
    itemsMatch (.star :: items) t = true ↔ ∃ s, s <:+ t ∧ itemsMatch items s = true := by
  simp only [itemsMatch, List.any_eq_true, mem_suffixes]

theorem itemsMatch_literal_iff {s t : Text} : itemsMatch (s.map .literal) t = true ↔ t = s := by
  induction s generalizing t with
  | nil => simp [itemsMatch]
  | cons c s ih =>
    cases t with
    | nil => simp [itemsMatch]
    | cons d t => simp [itemsMatch, GlobItem.admits, ih, eq_comm (a := c)]

/-- Items that match the empty text are stars, so they match every text. -/
theorem itemsMatch_of_nil {items : List GlobItem} (hne : items ≠ []) (h : itemsMatch items [] = true)
    (t : Text) : itemsMatch items t = true := by
  match items, hne with
  | .star :: items, _ =>
    obtain ⟨s, hs, hmatch⟩ := itemsMatch_star_iff.mp h
    rw [List.suffix_nil.mp hs] at hmatch
    exact itemsMatch_star_iff.mpr ⟨[], List.nil_suffix, hmatch⟩
  | .any :: _, _ | .literal _ :: _, _ | .set _ _ :: _, _ => cases h

/-! ## Patterns -/

/-- Whether no character of a pattern is special. -/
def IsLiteral (pattern : Text) : Prop := ∀ c ∈ pattern, c ≠ '*' ∧ c ≠ '?' ∧ c ≠ '['

instance (pattern : Text) : Decidable (IsLiteral pattern) := List.decidableBAll _ pattern

theorem readGlob_of_isLiteral {pattern : Text} (h : IsLiteral pattern) :
    readGlob pattern = pattern.map .literal := by
  induction pattern with
  | nil => rw [readGlob, List.map_nil]
  | cons c pattern ih =>
    obtain ⟨hstar, hany, hset⟩ := h c List.mem_cons_self
    rw [readGlob, if_neg hstar, if_neg hany, if_neg hset, ih fun d hd => h d (List.mem_cons_of_mem _ hd),
      List.map_cons]

/-- **A pattern without special characters matches itself only.** -/
theorem simpleMatch_of_isLiteral {pattern t : Text} (h : IsLiteral pattern) :
    simpleMatch pattern t = true ↔ t = pattern := by
  rw [simpleMatch, readGlob_of_isLiteral h, itemsMatch_literal_iff]

/-- **With a star in front it matches the texts that end with it.** -/
theorem simpleMatch_star_iff {pattern t : Text} (h : IsLiteral pattern) :
    simpleMatch ('*' :: pattern) t = true ↔ pattern <:+ t := by
  have hread : readGlob ('*' :: pattern) = .star :: pattern.map .literal := by
    rw [readGlob, if_pos rfl, readGlob_of_isLiteral h]
    cases pattern <;> rfl
  simp [simpleMatch, hread, itemsMatch_star_iff, itemsMatch_literal_iff]

theorem readGlob_ne_nil {pattern : Text} (h : pattern ≠ []) : readGlob pattern ≠ [] := by
  obtain ⟨c, pattern, rfl⟩ := List.exists_cons_of_ne_nil h
  rw [readGlob]
  repeat' split
  all_goals exact List.cons_ne_nil _ _

/-- **A pattern that matches the empty text matches every text,** unless it is empty itself. -/
theorem simpleMatch_of_nil {pattern : Text} (hne : pattern ≠ []) (h : simpleMatch pattern [] = true)
    (t : Text) : simpleMatch pattern t = true :=
  itemsMatch_of_nil (readGlob_ne_nil hne) h t

end PatchLint
