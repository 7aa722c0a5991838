import PatchLint.Proofs.Files.SimplePatterns
import PatchLint.Proofs.Text.Occurrences

/-!
# Double stars around a pattern

A pattern with a double star is taken apart by its shape, once: what is left of it is matched as a simple
pattern, in which two stars are like one. A component of two stars means:

* in front, that an end of the path matches, cut at a slash;
* behind, that the path is the front of the pattern or lies below it; the front is not read then but taken as it
  stands, so it counts like a pattern if it has no special characters;
* between, that the path lies below the front and an end of what is below matches the rest;
* in front and behind, that the name of a directory on the path matches.

* `globMatch_eq_simpleMatch` — without a component of two stars a pattern is simple
* `globMatch_leading`, `globMatch_around`, `globMatch_between`, `globMatch_trailing` — the four places
* `globMatch_doubleStars` — all of it, and when a pattern composes with the two stars
-/

namespace PatchLint

open Text (pieces joinWith)

/-- The component of two stars. -/
def doubleStar : Text := ['*', '*']

theorem slash_not_mem_doubleStar : '/' ∉ doubleStar := by decide

variable {pattern path : Text}

/-! ## Shapes -/

theorem pieces_leading (pattern : Text) :
    pieces '/' ("**/".toList ++ pattern) = doubleStar :: pieces '/' pattern :=
  Text.pieces_append_cons doubleStar pattern slash_not_mem_doubleStar

theorem pieces_trailing (pattern : Text) :
    pieces '/' (pattern ++ "/**".toList) = pieces '/' pattern ++ [doubleStar] :=
  Text.pieces_append_sep pattern doubleStar

/-- What starts with two stars and a slash has two stars as its first component. -/
theorem head?_of_startsWith (h : Text.startsWith pattern "**/".toList = true) :
    (pieces '/' pattern).head? = some doubleStar := by
  obtain ⟨rest, rfl⟩ := Text.startsWith_iff.mp h
  rw [pieces_leading, List.head?_cons]

/-- What ends with a slash and two stars has two stars as its last component. -/
theorem getLast?_of_endsWith (h : Text.endsWith pattern "/**".toList = true) :
    (pieces '/' pattern).getLast? = some doubleStar := by
  obtain ⟨front, rfl⟩ := Text.endsWith_iff.mp h
  rw [pieces_trailing, List.getLast?_concat]

theorem startsWith_eq_false (h : (pieces '/' pattern).head? ≠ some doubleStar) :
    Text.startsWith pattern "**/".toList = false :=
  Bool.eq_false_iff.mpr fun hstart => h (head?_of_startsWith hstart)

theorem endsWith_eq_false (h : (pieces '/' pattern).getLast? ≠ some doubleStar) :
    Text.endsWith pattern "/**".toList = false :=
  Bool.eq_false_iff.mpr fun hend => h (getLast?_of_endsWith hend)

/-- Only a component of two stars, neither the first nor the last, splits a pattern. -/
theorem splitFirst?_eq_none (h : doubleStar ∉ (pieces '/' pattern).dropLast) :
    Text.splitFirst? "/**/".toList pattern = none := by
  refine Option.eq_none_iff_forall_ne_some.mpr fun ⟨front, rest⟩ hsplit => h ?_
  have hpieces := Text.mem_pieces_of_splitFirst? slash_not_mem_doubleStar hsplit
  rw [hpieces, List.dropLast_append_of_ne_nil (List.cons_ne_nil _ _),
    List.dropLast_cons_of_ne_nil (Text.pieces_ne_nil _ _)]
  exact List.mem_append_right _ List.mem_cons_self

theorem splitFirst?_trailing_eq_none (h : doubleStar ∉ pieces '/' pattern) :
    Text.splitFirst? "/**/".toList (pattern ++ "/**".toList) = none := by
  refine splitFirst?_eq_none ?_
  rwa [pieces_trailing, List.dropLast_concat]

theorem includes_leading (pattern : Text) :
    Text.includes ("**/".toList ++ pattern) "**".toList = true :=
  Text.includes_iff.mpr ⟨[], '/' :: pattern, rfl⟩

theorem includes_trailing (pattern : Text) :
    Text.includes (pattern ++ "/**".toList) "**".toList = true :=
  Text.includes_iff.mpr ⟨pattern ++ ['/'], [], by simp⟩

/-- **Without a component of two stars a pattern is simple.** -/
theorem globMatch_eq_simpleMatch (h : doubleStar ∉ pieces '/' pattern) (path : Text) :
    globMatch pattern path = simpleMatch pattern path := by
  have hstart := startsWith_eq_false fun hhead => h (List.mem_of_head? hhead)
  have hend := endsWith_eq_false fun hlast => h (List.mem_of_getLast? hlast)
  have hsplit := splitFirst?_eq_none fun hmem => h ((List.dropLast_sublist _).subset hmem)
  unfold globMatch
  split
  · simp only [doubleStarMatch, hstart, hend, hsplit, Bool.false_and, Bool.false_eq_true, if_false]
  · rfl

/-! ## Ends of a path -/

/-- The ends of a path, cut at a slash. -/
theorem mem_pathEnds_iff {ps : List Text} {t : Text} :
    t ∈ pathEnds ps ↔ ∃ rest, rest ≠ [] ∧ rest <:+ ps ∧ t = joinWith ['/'] rest := by
  induction ps with
  | nil =>
    simp only [pathEnds, List.not_mem_nil, false_iff]
    rintro ⟨rest, hne, hrest, -⟩
    exact hne (List.suffix_nil.mp hrest)
  | cons p ps ih =>
    rw [pathEnds, List.mem_cons, ih]
    constructor
    · rintro (rfl | ⟨rest, hne, hrest, rfl⟩)
      · exact ⟨p :: ps, List.cons_ne_nil _ _, List.suffix_refl _, rfl⟩
      · exact ⟨rest, hne, hrest.trans (List.suffix_cons p ps), rfl⟩
    · rintro ⟨rest, hne, hrest, rfl⟩
      rcases List.suffix_cons_iff.mp hrest with rfl | hrest
      · exact Or.inl rfl
      · exact Or.inr ⟨rest, hne, hrest, rfl⟩

/-- Whether a simple pattern matches an end of a path, cut at a slash. -/
def MatchesEnd (pattern path : Text) : Prop :=
  ∃ rest, rest ≠ [] ∧ rest <:+ pieces '/' path ∧ simpleMatch pattern (joinWith ['/'] rest) = true

theorem someEndMatches_iff : someEndMatches pattern path = true ↔ MatchesEnd pattern path := by
  simp only [someEndMatches, List.any_eq_true, mem_pathEnds_iff, MatchesEnd]
  constructor
  · rintro ⟨-, ⟨rest, hne, hrest, rfl⟩, hmatch⟩
    exact ⟨rest, hne, hrest, hmatch⟩
  · rintro ⟨rest, hne, hrest, hmatch⟩
    exact ⟨_, ⟨rest, hne, hrest, rfl⟩, hmatch⟩

/-- That the end may be empty changes nothing: what matches the empty text matches the whole path. -/
theorem matchesEnd_iff (hne : pattern ≠ []) :
    MatchesEnd pattern path ↔
      ∃ rest, rest <:+ pieces '/' path ∧ simpleMatch pattern (joinWith ['/'] rest) = true := by
  constructor
  · rintro ⟨rest, -, hrest, hmatch⟩
    exact ⟨rest, hrest, hmatch⟩
  · rintro ⟨rest, hrest, hmatch⟩
    by_cases hempty : rest = []
    · subst hempty
      exact ⟨_, Text.pieces_ne_nil '/' path, List.suffix_refl _, simpleMatch_of_nil hne hmatch _⟩
    · exact ⟨rest, hempty, hrest, hmatch⟩

/-! ## The four places -/

/-- **In front:** an end of the path matches. -/
theorem globMatch_leading (hlast : (pieces '/' pattern).getLast? ≠ some doubleStar) (path : Text) :
    globMatch ("**/".toList ++ pattern) path = true ↔ MatchesEnd pattern path := by
  have hstart : Text.startsWith ("**/".toList ++ pattern) "**/".toList = true :=
    Text.startsWith_iff.mpr (List.prefix_append _ _)
  have hend : Text.endsWith ("**/".toList ++ pattern) "/**".toList = false := by
    refine endsWith_eq_false ?_
    rwa [pieces_leading, List.getLast?_cons_of_ne_nil (Text.pieces_ne_nil _ _)]
  have hrest : ("**/".toList ++ pattern).drop 3 = pattern := rfl
  rw [globMatch, if_pos (includes_leading pattern), doubleStarMatch]
  simp only [hstart, hend, hrest, Bool.and_false, Bool.false_eq_true, if_false, if_true, someEndMatches_iff]

/-- **On both sides:** the name of a directory on the path matches. -/
theorem globMatch_around (pattern path : Text) :
    globMatch ("**/".toList ++ pattern ++ "/**".toList) path = true ↔
      ∃ name ∈ (pieces '/' path).dropLast, simpleMatch pattern name = true := by
  have hstart : Text.startsWith ("**/".toList ++ pattern ++ "/**".toList) "**/".toList = true := by
    rw [List.append_assoc]
    exact Text.startsWith_iff.mpr (List.prefix_append _ _)
  have hend : Text.endsWith ("**/".toList ++ pattern ++ "/**".toList) "/**".toList = true :=
    Text.endsWith_iff.mpr (List.suffix_append _ _)
  have hmiddle : (("**/".toList ++ pattern ++ "/**".toList).take
      (("**/".toList ++ pattern ++ "/**".toList).length - 3)).drop 3 = pattern := by
    simp
  have hincludes : Text.includes ("**/".toList ++ pattern ++ "/**".toList) "**".toList = true := by
    rw [List.append_assoc]
    exact includes_leading _
  rw [globMatch, if_pos hincludes, doubleStarMatch]
  simp only [hstart, hend, hmiddle, Bool.and_true, if_true, List.any_eq_true]

/-- A pattern that goes on after a front without a component of two stars does not start with one. -/
theorem startsWith_append_eq_false (h : doubleStar ∉ pieces '/' pattern) (rest : Text) :
    Text.startsWith (pattern ++ '/' :: rest) "**/".toList = false := by
  refine startsWith_eq_false ?_
  obtain ⟨name, names, hpieces⟩ := List.exists_cons_of_ne_nil (Text.pieces_ne_nil '/' pattern)
  rw [Text.pieces_append_sep, hpieces, List.cons_append, List.head?_cons]
  rw [hpieces] at h
  exact fun hhead => h (List.mem_of_head? hhead)

/-- **Between a front and a rest:** the path goes on below the front, and an end of what is below matches. -/
theorem globMatch_between (h : doubleStar ∉ pieces '/' pattern) (tail path : Text) :
    globMatch (pattern ++ "/**/".toList ++ tail) path = true ↔
      ∃ below, path = pattern ++ '/' :: below ∧ MatchesEnd tail below := by
  have hstart : Text.startsWith (pattern ++ "/**/".toList ++ tail) "**/".toList = false := by
    rw [List.append_assoc]
    exact startsWith_append_eq_false h _
  have hsplit : Text.splitFirst? "/**/".toList (pattern ++ "/**/".toList ++ tail) = some (pattern, tail) := by
    refine Text.splitFirst?_append (by decide) ?_ tail
    rw [← Text.splitFirst?_eq_none_iff]
    exact splitFirst?_trailing_eq_none h
  have hincludes : Text.includes (pattern ++ "/**/".toList ++ tail) "**".toList = true :=
    Text.includes_iff.mpr ⟨pattern ++ ['/'], '/' :: tail, by simp⟩
  rw [globMatch, if_pos hincludes, doubleStarMatch]
  simp only [hstart, hsplit, Bool.false_and, Bool.false_eq_true, if_false, Bool.and_eq_true,
    Text.startsWith_iff, someEndMatches_iff]
  have hdrop (below : Text) : (pattern ++ '/' :: below).drop (pattern.length + 1) = below := by simp
  constructor
  · rintro ⟨⟨below, rfl⟩, hbelow⟩
    rw [List.append_assoc, List.singleton_append, hdrop] at hbelow
    exact ⟨below, by simp, hbelow⟩
  · rintro ⟨below, rfl, hbelow⟩
    rw [hdrop]
    exact ⟨⟨below, by simp⟩, hbelow⟩

/-- **Behind:** the path is the pattern as it stands, or lies below it. -/
theorem globMatch_trailing (h : doubleStar ∉ pieces '/' pattern) (path : Text) :
    globMatch (pattern ++ "/**".toList) path = true ↔ path = pattern ∨ pattern ++ ['/'] <+: path := by
  have hstart : Text.startsWith (pattern ++ "/**".toList) "**/".toList = false :=
    startsWith_append_eq_false h _
  have hend : Text.endsWith (pattern ++ "/**".toList) "/**".toList = true :=
    Text.endsWith_iff.mpr (List.suffix_append _ _)
  have hfront : (pattern ++ "/**".toList).take ((pattern ++ "/**".toList).length - 3) = pattern := by
    simp
  rw [globMatch, if_pos (includes_trailing pattern), doubleStarMatch]
  simp only [hstart, hend, splitFirst?_trailing_eq_none h, hfront, Bool.false_and, Bool.false_eq_true,
    if_false, if_true, Bool.or_eq_true, beq_iff_eq, Text.startsWith_iff]
  exact or_comm

/-- The path is a text or lies below it exactly if some components in front of the path are this text. -/
theorem eq_or_below_iff :
    path = pattern ∨ pattern ++ ['/'] <+: path ↔
      ∃ front, front ≠ [] ∧ front <+: pieces '/' path ∧ joinWith ['/'] front = pattern := by
  constructor
  · rintro (rfl | ⟨rest, rfl⟩)
    · exact ⟨_, Text.pieces_ne_nil _ _, List.prefix_refl _, Text.joinWith_pieces _ _⟩
    · refine ⟨_, Text.pieces_ne_nil '/' pattern, ?_, Text.joinWith_pieces _ _⟩
      rw [List.append_assoc, List.singleton_append, Text.pieces_append_sep]
      exact List.prefix_append _ _
  · rintro ⟨front, hfront, ⟨rest, hrest⟩, rfl⟩
    have hpath := Text.joinWith_pieces '/' path
    rw [← hrest] at hpath
    by_cases hempty : rest = []
    · rw [hempty, List.append_nil] at hpath
      exact Or.inl hpath.symm
    · rw [Text.joinWith_append hfront hempty] at hpath
      exact Or.inr ⟨_, hpath⟩

/-! ## Composition -/

/-- Two stars in front of a pattern mean that the pattern matches an end of the path. -/
def ComposesInFront (pattern path : Text) : Prop :=
  globMatch ("**/".toList ++ pattern) path = true ↔
    ∃ rest, rest <:+ pieces '/' path ∧ globMatch pattern (joinWith ['/'] rest) = true

/-- Two stars behind a pattern mean that the pattern matches a front of the path. -/
def ComposesBehind (pattern path : Text) : Prop :=
  globMatch (pattern ++ "/**".toList) path = true ↔
    ∃ front, front ≠ [] ∧ front <+: pieces '/' path ∧ globMatch pattern (joinWith ['/'] front) = true

theorem composesBehind_of_isLiteral (h : doubleStar ∉ pieces '/' pattern) (hliteral : IsLiteral pattern)
    (path : Text) : ComposesBehind pattern path := by
  simp only [ComposesBehind, globMatch_trailing h, eq_or_below_iff, globMatch_eq_simpleMatch h,
    simpleMatch_of_isLiteral hliteral]

/-- **Double stars around a pattern.** A pattern without a component of two stars composes with two stars in
front of it; behind it they mean that the path is the pattern as it stands or lies below it, so it composes if
it has no special characters, and what follows them is looked for below. In front of any pattern and on both
sides of it the pattern counts as a simple one, its own double stars too. -/
theorem globMatch_doubleStars (hne : pattern ≠ []) (path : Text) :
    (doubleStar ∉ pieces '/' pattern →
        ComposesInFront pattern path ∧
        (globMatch (pattern ++ "/**".toList) path = true ↔ path = pattern ∨ pattern ++ ['/'] <+: path) ∧
        (IsLiteral pattern → ComposesBehind pattern path) ∧
        ∀ tail, globMatch (pattern ++ "/**/".toList ++ tail) path = true ↔
          ∃ below, path = pattern ++ '/' :: below ∧ MatchesEnd tail below) ∧
      ((pieces '/' pattern).getLast? ≠ some doubleStar →
        (globMatch ("**/".toList ++ pattern) path = true ↔ MatchesEnd pattern path)) ∧
      (globMatch ("**/".toList ++ pattern ++ "/**".toList) path = true ↔
        ∃ name ∈ (pieces '/' path).dropLast, simpleMatch pattern name = true) := by
  refine ⟨fun h => ⟨?_, globMatch_trailing h path, fun hliteral => composesBehind_of_isLiteral h hliteral path,
    fun tail => globMatch_between h tail path⟩, fun hlast => globMatch_leading hlast path,
    globMatch_around pattern path⟩
  have hlast : (pieces '/' pattern).getLast? ≠ some doubleStar := fun hlast => h (List.mem_of_getLast? hlast)
  simp only [ComposesInFront, globMatch_leading hlast, matchesEnd_iff hne, globMatch_eq_simpleMatch h]

/-- A name is found at the end of a path, in front of it, as a directory within it, and in front of a name. -/
theorem globMatch_doubleStars_dist :
    "dist".toList ≠ [] ∧ doubleStar ∉ pieces '/' "dist".toList ∧
      globMatch "**/dist".toList "lib/dist".toList = true ∧
      globMatch "dist/**".toList "dist/lib/a.js".toList = true ∧
      globMatch "dist/**/*.js".toList "dist/lib/a.js".toList = true ∧
      globMatch "**/dist/**".toList "lib/dist/a.js".toList = true := by
  have hne : "dist".toList ≠ [] := by decide
  have hplain : doubleStar ∉ pieces '/' "dist".toList := by decide
  have hself : globMatch "dist".toList "dist".toList = true := by decide +kernel
  obtain ⟨hleading, -⟩ := (globMatch_doubleStars hne "lib/dist".toList).1 hplain
  obtain ⟨-, -, hbehind, hbetween⟩ := (globMatch_doubleStars hne "dist/lib/a.js".toList).1 hplain
  obtain ⟨-, -, haround⟩ := globMatch_doubleStars hne "lib/dist/a.js".toList
  exact ⟨hne, hplain, hleading.mpr ⟨["dist".toList], by decide, hself⟩,
    (hbehind (by decide)).mpr ⟨["dist".toList], by decide, by decide, hself⟩,
    (hbetween "*.js".toList).mpr ⟨"lib/a.js".toList, rfl, ["a.js".toList], by decide, by decide,
      by decide +kernel⟩,
    haround.mpr ⟨"dist".toList, by decide, by decide +kernel⟩⟩

/-- Patterns with double stars of their own do not compose on either side, nor do special characters in front
of double stars. -/
theorem not_globMatch_src :
    ¬(∀ pattern path : Text, pattern ≠ [] → (∀ name ∈ pieces '/' path, name ≠ []) →
        ComposesInFront pattern path ∧ ComposesBehind pattern path) ∧
      ¬ComposesInFront "src/**".toList "src".toList ∧ ¬ComposesInFront "src/**/a.js".toList "src/a.js".toList ∧
      ¬ComposesBehind "**/src".toList "src".toList ∧ ¬ComposesBehind "*.d".toList "a.d/x.js".toList := by
  have hends : ¬ComposesInFront "src/**".toList "src".toList := by
    intro h
    exact absurd (h.mpr ⟨["src".toList], by decide, by decide⟩) (by decide)
  have hinner : ¬ComposesInFront "src/**/a.js".toList "src/a.js".toList := by
    intro h
    exact absurd (h.mpr ⟨["src".toList, "a.js".toList], by decide, by decide +kernel⟩) (by decide +kernel)
  have hstarts : ¬ComposesBehind "**/src".toList "src".toList := by
    intro h
    exact absurd (h.mpr ⟨["src".toList], by decide, by decide, by decide +kernel⟩) (by decide)
  have hspecial : ¬ComposesBehind "*.d".toList "a.d/x.js".toList := by
    intro h
    exact absurd (h.mpr ⟨["a.d".toList], by decide, by decide, by decide +kernel⟩) (by decide)
  refine ⟨fun h => hends (h _ _ (by decide) (by decide)).1, hends, hinner, hstarts, hspecial⟩

end PatchLint
