import PatchLint.Text.Basic

/-!
# Cutting what was joined

`pieces` cuts at a separator. Here it is shown that a piece never holds the separator, and that
cutting gives back the lines of a text in which each line is followed by the separator.

* `not_mem_of_mem_pieces` — no piece holds the separator
* `pieces_append_sep`, `length_pieces`, `head?_pieces` — where a text is cut
* `pieces_flatMap_ended` — ended lines are found again, with an empty piece behind the last end
* `pieces_joinWith` — joined lines are found again
* `eq_or_of_joinWith_eq` — joining confuses no line with one empty line, and nothing else
* `joinWith_concat_nil` — an empty last piece stands for a separator at the end
-/

namespace PatchLint.Text

variable {sep : Char}

theorem mem_extendFirst {c : Char} {ps : List Text} {p : Text} (h : p ∈ extendFirst c ps) :
    p = [c] ∨ p ∈ ps ∨ ∃ q ∈ ps, p = c :: q := by
  match ps, h with
  | [], h => exact Or.inl (List.mem_singleton.mp h)
  | q :: qs, h =>
    rcases List.mem_cons.mp h with rfl | h
    · exact Or.inr (Or.inr ⟨q, List.mem_cons_self, rfl⟩)
    · exact Or.inr (Or.inl (List.mem_cons_of_mem _ h))

/-- No piece holds the separator. -/
theorem not_mem_of_mem_pieces : ∀ {t p : Text}, p ∈ pieces sep t → sep ∉ p
  | [], p, h => by
    rw [pieces, List.mem_singleton] at h
    subst h
    exact List.not_mem_nil
  | c :: cs, p, h => by
    rw [pieces] at h
    split at h
    · rcases List.mem_cons.mp h with rfl | h
      · exact List.not_mem_nil
      · exact not_mem_of_mem_pieces h
    · next hc =>
      have hc' : sep ≠ c := fun e => hc e.symm
      rcases mem_extendFirst h with rfl | h | ⟨q, hq, rfl⟩
      · simpa using hc'
      · exact not_mem_of_mem_pieces h
      · simpa [hc'] using not_mem_of_mem_pieces hq

/-- A line without the separator is the first piece, up to the separator after it. -/
theorem pieces_append_cons (l rest : Text) (h : sep ∉ l) :
    pieces sep (l ++ sep :: rest) = l :: pieces sep rest := by
  induction l with
  | nil => simp [pieces]
  | cons c l ih =>
    rw [List.mem_cons, not_or] at h
    rw [List.cons_append, pieces, if_neg (fun e => h.1 e.symm), ih h.2]
    rfl

/-- Ended lines in front of a text are its first pieces. -/
theorem pieces_flatMap_append (ls : List Text) (rest : Text) (h : ∀ l ∈ ls, sep ∉ l) :
    pieces sep (ls.flatMap (· ++ [sep]) ++ rest) = ls ++ pieces sep rest := by
  induction ls with
  | nil => rfl
  | cons l ls ih =>
    have hl := h l List.mem_cons_self
    have hls := fun l' hl' => h l' (List.mem_cons_of_mem _ hl')
    rw [List.flatMap_cons, List.append_assoc, List.append_assoc, List.singleton_append,
      pieces_append_cons l _ hl, ih hls]
    rfl

/-- **Ended lines are found again.** The empty piece at the end stands behind the last end. -/
theorem pieces_flatMap_ended (ls : List Text) (h : ∀ l ∈ ls, sep ∉ l) :
    pieces sep (ls.flatMap (· ++ [sep])) = ls ++ [[]] := by
  have hpieces := pieces_flatMap_append ls [] h
  rwa [List.append_nil] at hpieces

/-- A text without the separator is one piece. -/
theorem pieces_of_not_mem {l : Text} (h : sep ∉ l) : pieces sep l = [l] := by
  induction l with
  | nil => rfl
  | cons c l ih =>
    rw [List.mem_cons, not_or] at h
    rw [pieces, if_neg fun e => h.1 e.symm, ih h.2]
    rfl

/-- **A separator cuts, whatever stands in front of it and behind it.** -/
theorem pieces_append_sep (s t : Text) :
    pieces sep (s ++ sep :: t) = pieces sep s ++ pieces sep t := by
  induction s with
  | nil => simp [pieces]
  | cons c s ih =>
    rw [List.cons_append, pieces, pieces, ih]
    by_cases hc : c = sep
    · rw [if_pos hc, if_pos hc, List.cons_append]
    · rw [if_neg hc, if_neg hc]
      obtain ⟨p, ps, hp⟩ := List.exists_cons_of_ne_nil (pieces_ne_nil sep s)
      rw [hp]
      rfl

/-- There is one piece more than there are separators. -/
theorem length_pieces (t : Text) : (pieces sep t).length = t.count sep + 1 := by
  induction t with
  | nil => rfl
  | cons c t ih =>
    rw [pieces]
    by_cases hc : c = sep
    · rw [if_pos hc, List.length_cons, ih, hc, List.count_cons_self]
    · obtain ⟨p, ps, hp⟩ := List.exists_cons_of_ne_nil (pieces_ne_nil sep t)
      rw [hp] at ih
      rw [if_neg hc, hp, List.count_cons_of_ne hc, ← ih]
      rfl

/-- The first piece goes up to the first separator. -/
theorem head?_pieces (t : Text) : (pieces sep t)[0]? = some (t.takeWhile (· ≠ sep)) := by
  induction t with
  | nil => rfl
  | cons c t ih =>
    rw [pieces]
    by_cases hc : c = sep
    · rw [if_pos hc, List.takeWhile_cons_of_neg (by simpa using hc)]
      rfl
    · obtain ⟨p, ps, hp⟩ := List.exists_cons_of_ne_nil (pieces_ne_nil sep t)
      rw [hp, List.getElem?_cons_zero, Option.some.injEq] at ih
      rw [if_neg hc, hp, List.takeWhile_cons_of_pos (by simpa using hc), ← ih]
      rfl

/-- **Joined lines are found again.** -/
theorem pieces_joinWith : ∀ {ls : List Text}, ls ≠ [] → (∀ l ∈ ls, sep ∉ l) →
    pieces sep (joinWith [sep] ls) = ls
  | [l], _, h => pieces_of_not_mem (h l List.mem_cons_self)
  | l :: m :: ls, _, h => by
    have hrest := pieces_joinWith (List.cons_ne_nil m ls)
      fun l' hl' => h l' (List.mem_cons_of_mem _ hl')
    rw [joinWith, List.append_assoc, List.singleton_append,
      pieces_append_cons l _ (h l List.mem_cons_self), hrest]

/-- No line and one empty line are joined to the same text; all other lines are told apart. -/
theorem eq_or_of_joinWith_eq {ls ms : List Text} (hls : ∀ l ∈ ls, sep ∉ l) (hms : ∀ l ∈ ms, sep ∉ l)
    (h : joinWith [sep] ls = joinWith [sep] ms) :
    ls = ms ∨ joinWith [sep] ls = [] ∧ (ls = [] ∧ ms = [[]] ∨ ls = [[]] ∧ ms = []) := by
  by_cases hl : ls = []
  · by_cases hm : ms = []
    · exact Or.inl (hl.trans hm.symm)
    · have hempty : ms = [[]] := by rw [← pieces_joinWith hm hms, ← h, hl]; rfl
      exact Or.inr ⟨by rw [hl]; rfl, Or.inl ⟨hl, hempty⟩⟩
  · by_cases hm : ms = []
    · have hempty : ls = [[]] := by rw [← pieces_joinWith hl hls, h, hm]; rfl
      exact Or.inr ⟨by rw [hempty]; rfl, Or.inr ⟨hempty, hm⟩⟩
    · exact Or.inl (by rw [← pieces_joinWith hl hls, h, pieces_joinWith hm hms])

/-- An empty last piece stands for a separator at the end. -/
theorem joinWith_concat_nil (s : Text) {ls : List Text} (h : ls ≠ []) :
    joinWith s (ls ++ [[]]) = joinWith s ls ++ s := by
  match ls, h with
  | [l], _ => simp [joinWith]
  | l :: m :: ls, _ =>
    have ih := joinWith_concat_nil s (List.cons_ne_nil m ls)
    simp only [List.cons_append] at ih ⊢
    simp only [joinWith, ih, List.append_assoc]

end PatchLint.Text
