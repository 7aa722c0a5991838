import PatchLint.Proofs.Text.Pieces

/-!
# Where a text occurs in another

`splitFirst?` cuts at the first occurrence of a text. What it gives is a cut, and it gives nothing only if
there is no occurrence. If the text that is looked for has the separator at both ends, an occurrence is a
piece of its own.

* `eq_of_splitFirst?`, `splitFirst?_eq_none_iff`, `includes_iff` — cuts and occurrences
* `splitFirst?_append` — an occurrence is the first if none is complete before its end
* `mem_pieces_of_splitFirst?` — a piece between two separators
* `joinWith_append`, `infix_joinWith`, `suffix_joinWith` — parts of joined pieces
-/

namespace PatchLint.Text

theorem startsWith_iff {t needle : Text} : startsWith t needle = true ↔ needle <+: t :=
  List.isPrefixOf_iff_prefix

theorem endsWith_iff {t needle : Text} : endsWith t needle = true ↔ needle <:+ t :=
  List.isSuffixOf_iff_suffix

/-- **What is found is a cut.** -/
theorem eq_of_splitFirst? {needle t before after : Text}
    (h : splitFirst? needle t = some (before, after)) : t = before ++ needle ++ after := by
  induction t generalizing before with
  | nil =>
    rw [splitFirst?] at h
    split at h
    · next hempty =>
      cases h
      rw [List.isEmpty_iff.mp hempty]
      rfl
    · cases h
  | cons c t ih =>
    rw [splitFirst?] at h
    split at h
    · next hfront =>
      cases h
      rw [List.nil_append]
      exact (List.prefix_iff_eq_append.mp (List.isPrefixOf_iff_prefix.mp hfront)).symm
    · obtain ⟨⟨before', after'⟩, hrest, heq⟩ := Option.map_eq_some_iff.mp h
      cases heq
      rw [ih hrest]
      rfl

/-- **Nothing is found only if there is no occurrence.** -/
theorem splitFirst?_eq_none_iff {needle t : Text} : splitFirst? needle t = none ↔ ¬needle <:+: t := by
  constructor
  · intro h hinfix
    induction t with
    | nil =>
      rw [List.infix_nil.mp hinfix] at h
      cases h
    | cons c t ih =>
      rw [splitFirst?] at h
      split at h
      · cases h
      · next hfront =>
        rcases List.infix_cons_iff.mp hinfix with hprefix | hrest
        · exact hfront (List.isPrefixOf_iff_prefix.mpr hprefix)
        · exact ih (Option.map_eq_none_iff.mp h) hrest
  · intro h
    refine Option.eq_none_iff_forall_ne_some.mpr fun cut hcut => h ?_
    exact ⟨cut.1, cut.2, (eq_of_splitFirst? hcut).symm⟩

/-- **An occurrence is the first** if there is none in what stands before its last character. -/
theorem splitFirst?_append {needle before : Text} (hne : needle ≠ [])
    (h : ¬needle <:+: before ++ needle.dropLast) (after : Text) :
    splitFirst? needle (before ++ needle ++ after) = some (before, after) := by
  induction before with
  | nil =>
    obtain ⟨c, rest, rfl⟩ := List.exists_cons_of_ne_nil hne
    have hfront : (c :: rest).isPrefixOf (c :: (rest ++ after)) = true :=
      List.isPrefixOf_iff_prefix.mpr (List.prefix_append (c :: rest) after)
    rw [List.nil_append, List.cons_append, splitFirst?, if_pos hfront, ← List.cons_append, List.drop_left]
  | cons c before ih =>
    have hrest : ¬needle <:+: before ++ needle.dropLast := fun hinfix => h (List.infix_cons hinfix)
    have hshort : c :: before ++ needle.dropLast <+: c :: before ++ needle ++ after :=
      ((List.prefix_append_right_inj _).mpr (List.dropLast_prefix needle)).trans (List.prefix_append _ _)
    have hfront : ¬needle.isPrefixOf (c :: before ++ needle ++ after) = true := by
      intro hprefix
      have hlength : needle.length ≤ (c :: before ++ needle.dropLast).length := by
        rw [List.length_append, List.length_cons, List.length_dropLast]
        omega
      exact h (List.prefix_of_prefix_length_le (List.isPrefixOf_iff_prefix.mp hprefix) hshort hlength).isInfix
    simp only [List.cons_append] at hfront
    rw [List.cons_append, List.cons_append, splitFirst?, if_neg hfront, ih hrest]
    rfl

theorem includes_iff {t needle : Text} : includes t needle = true ↔ needle <:+: t := by
  rw [includes, Option.isSome_iff_ne_none, ne_eq, splitFirst?_eq_none_iff, Decidable.not_not]

/-- **A piece between two separators.** -/
theorem mem_pieces_of_splitFirst? {sep : Char} {piece t before after : Text} (hpiece : sep ∉ piece)
    (h : splitFirst? (sep :: piece ++ [sep]) t = some (before, after)) :
    pieces sep t = pieces sep before ++ piece :: pieces sep after := by
  rw [eq_of_splitFirst? h, List.cons_append, List.append_assoc, List.cons_append, pieces_append_sep,
    List.append_assoc, List.singleton_append, pieces_append_cons piece after hpiece]

/-- Joined pieces in two parts. -/
theorem joinWith_append {sep : Text} {ps qs : List Text} (hps : ps ≠ []) (hqs : qs ≠ []) :
    joinWith sep (ps ++ qs) = joinWith sep ps ++ sep ++ joinWith sep qs := by
  match ps, hps with
  | [p], _ =>
    obtain ⟨q, qs, rfl⟩ := List.exists_cons_of_ne_nil hqs
    rfl
  | p :: p' :: ps, _ =>
    have hrest : joinWith sep (p' :: ps ++ qs) = joinWith sep (p' :: ps) ++ sep ++ joinWith sep qs :=
      joinWith_append (List.cons_ne_nil p' ps) hqs
    simp only [List.cons_append] at hrest ⊢
    simp only [joinWith, hrest, List.append_assoc]

/-- Every piece occurs in the joined text. -/
theorem infix_joinWith {sep t : Text} {ts : List Text} (h : t ∈ ts) : t <:+: joinWith sep ts := by
  match ts, h with
  | [u], h =>
    rw [List.mem_singleton.mp h]
    exact List.infix_refl _
  | u :: u' :: us, h =>
    rw [joinWith]
    rcases List.mem_cons.mp h with rfl | h
    · rw [List.append_assoc]
      exact (List.prefix_append _ _).isInfix
    · exact (infix_joinWith h).trans (List.suffix_append _ _).isInfix

/-- The last pieces are joined to an end of the joined text. -/
theorem suffix_joinWith {sep : Text} {ps rest : List Text} (h : rest <:+ ps) :
    joinWith sep rest <:+ joinWith sep ps := by
  obtain ⟨front, rfl⟩ := h
  by_cases hfront : front = []
  · subst hfront
    exact List.suffix_refl _
  by_cases hrest : rest = []
  · rw [hrest]
    exact List.nil_suffix
  · rw [joinWith_append hfront hrest]
    exact List.suffix_append _ _

end PatchLint.Text
