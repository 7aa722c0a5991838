import Mathlib.Data.List.Infix
import Mathlib.Data.List.TakeWhile
import PatchLint.Files.Scan
import PatchLint.Proofs.Files.DoubleStars

/-!
# What the default patterns accept

The default patterns for sources name each known suffix once, in small letters. The language of a file is known
for its suffix in any case. So of the files in a known language the default patterns accept those with a suffix
in small letters, and pass over the others without excluding them.

* `globMatch_anyName_iff` — a pattern for all names with an end
* `suffixOf_eq_iff` — the suffix of a name and its end
* `suffix_shown_iff` — a path is shown with its name at the end
* `matchesFrom_defaultInclude` — which files in a known language are accepted
-/

namespace PatchLint

open Text (pieces joinWith)

/-! ## Patterns for names -/

/-- **A star for the name and an end** match the paths with that end, at any depth. -/
theorem globMatch_anyName_iff {ending t : Text} (hliteral : IsLiteral ending) (hslash : '/' ∉ ending) :
    globMatch ("**/*".toList ++ ending) t = true ↔ ending <:+ t := by
  have hlast : (pieces '/' ('*' :: ending)).getLast? ≠ some doubleStar := by
    rw [Text.pieces_of_not_mem (by simp [hslash]), List.getLast?_singleton]
    intro h
    have hstar : ending = ['*'] := (List.cons.inj (Option.some.inj h)).2
    exact (hliteral '*' (by rw [hstar]; exact List.mem_singleton_self _)).1 rfl
  have hleading := globMatch_leading hlast t
  simp only [matchesEnd_iff (List.cons_ne_nil _ _), simpleMatch_star_iff hliteral] at hleading
  refine hleading.trans ⟨?_, fun h => ⟨_, List.suffix_refl _, by rwa [Text.joinWith_pieces]⟩⟩
  rintro ⟨rest, hrest, hend⟩
  have hsuffix : joinWith ['/'] rest <:+ joinWith ['/'] (pieces '/' t) := Text.suffix_joinWith hrest
  rw [Text.joinWith_pieces] at hsuffix
  exact hend.trans hsuffix

theorem anyMatch_str (t : Text) (patterns : List String) :
    anyMatch t (patterns.map .str) = .ok (patterns.any fun p => globMatch p.toList t) := by
  induction patterns with
  | nil => rfl
  | cons p patterns ih =>
    rw [List.map_cons, anyMatch, Value.globMatch, List.any_cons, ih]
    cases globMatch p.toList t <;> rfl

/-! ## Names and suffixes -/

namespace Path

theorem suffixOf_of_not_mem {name : Text} (h : '.' ∉ name) : suffixOf name = [] := by
  have htake : name.reverse.takeWhile (· ≠ '.') = name.reverse := by
    refine List.takeWhile_eq_self_iff.mpr fun c hc => ?_
    simp only [ne_eq, decide_eq_true_eq]
    rintro rfl
    exact h (List.mem_reverse.mp hc)
  rw [suffixOf, htake, if_pos]
  simp

/-- The suffix of a name that is cut at its last dot. -/
theorem suffixOf_append (front : Text) {tail : Text} (h : '.' ∉ tail) :
    suffixOf (front ++ '.' :: tail) = if tail = [] ∨ front = [] then [] else '.' :: tail := by
  have htake : (front ++ '.' :: tail).reverse.takeWhile (· ≠ '.') = tail.reverse := by
    rw [List.reverse_append, List.reverse_cons, List.append_assoc, List.takeWhile_append_of_pos]
    · simp
    · intro c hc
      simp only [ne_eq, decide_eq_true_eq]
      rintro rfl
      exact h (List.mem_reverse.mp hc)
  have hlength : (front ++ '.' :: tail).length ≤ tail.reverse.length + 1 ↔ front = [] := by
    rw [List.length_append, List.length_cons, List.length_reverse, ← List.length_eq_zero_iff]
    omega
  rw [suffixOf]
  simp only [htake, Bool.or_eq_true, List.isEmpty_iff, List.reverse_eq_nil_iff, decide_eq_true_eq,
    hlength, List.reverse_reverse]

theorem exists_lastDot {name : Text} (h : '.' ∈ name) :
    ∃ front tail, '.' ∉ tail ∧ name = front ++ '.' :: tail := by
  obtain ⟨s, t, hname, hs⟩ := List.eq_append_cons_of_mem (List.mem_reverse.mpr h)
  refine ⟨t.reverse, s.reverse, fun hdot => hs (List.mem_reverse.mp hdot), ?_⟩
  rw [← List.reverse_reverse name, hname]
  simp

/-- **The suffix of a name is its end,** from the last dot on. -/
theorem suffixOf_eq_iff {name tail : Text} (hdot : '.' ∉ tail) :
    suffixOf name = '.' :: tail ↔ suffixOf name ≠ [] ∧ '.' :: tail <:+ name := by
  constructor
  · intro h
    refine ⟨by rw [h]; exact List.cons_ne_nil _ _, ?_⟩
    by_cases hmem : '.' ∈ name
    · obtain ⟨front, tail', hdot', rfl⟩ := exists_lastDot hmem
      rw [suffixOf_append front hdot'] at h
      split at h
      · cases h
      · rw [← h]
        exact List.suffix_append _ _
    · rw [suffixOf_of_not_mem hmem] at h
      cases h
  · rintro ⟨hne, front, rfl⟩
    rw [suffixOf_append front hdot] at hne ⊢
    split at hne
    · exact absurd rfl hne
    · next hcut => rw [if_neg hcut]

end Path

/-! ## Paths as they are shown -/

/-- An end without a slash does not reach beyond the last one. -/
theorem suffix_append_slash_iff {ending front name : Text} (h : '/' ∉ ending) :
    ending <:+ front ++ '/' :: name ↔ ending <:+ name := by
  have hname : name <:+ front ++ '/' :: name := ⟨front ++ ['/'], by simp⟩
  refine ⟨fun hend => ?_, fun hend => hend.trans hname⟩
  rcases List.suffix_or_suffix_of_suffix hend hname with hshort | ⟨u, rfl⟩
  · exact hshort
  · obtain ⟨w, hw⟩ := hend
    have hcut : w ++ u = front ++ ['/'] := by
      have hwhole : w ++ u ++ name = front ++ ['/'] ++ name := by simpa using hw
      exact List.append_cancel_right hwhole
    rcases List.eq_nil_or_concat' u with rfl | ⟨u', c, rfl⟩
    · exact List.suffix_refl _
    · rw [← List.append_assoc] at hcut
      have hc : c = '/' := by simpa using (List.append_inj_right' hcut rfl)
      subst hc
      exact absurd (List.mem_append_left _ (List.mem_append_right _ (List.mem_singleton_self _))) h

namespace Path

/-- A path is shown with its name at the end. -/
theorem exists_toString {p : Path} (h : p.parts ≠ []) :
    p.toString.toList = p.name.toList ∨ ∃ u, p.toString.toList = u ++ '/' :: p.name.toList := by
  obtain ⟨front, name, hparts⟩ := (List.eq_nil_or_concat' p.parts).resolve_left h
  have hname : p.name = name := by rw [Path.name, hparts, List.getLast?_concat, Option.getD_some]
  have hshown : p.toString.toList =
      p.anchor.text.toList ++ joinWith ['/'] (front.map String.toList ++ [name.toList]) := by
    rw [Path.toString, if_neg (by simp [hparts]), String.toList_append, joinStrings, hparts,
      String.toList_ofList, List.map_append]
    rfl
  rw [hname, hshown]
  by_cases hfront : front = []
  · subst hfront
    cases hanchor : p.anchor with
    | relative => exact Or.inl rfl
    | root => exact Or.inr ⟨[], rfl⟩
    | doubleRoot => exact Or.inr ⟨['/'], rfl⟩
  · refine Or.inr ⟨p.anchor.text.toList ++ joinWith ['/'] (front.map String.toList), ?_⟩
    rw [Text.joinWith_append (by simpa using hfront) (List.cons_ne_nil _ _)]
    simp [joinWith]

/-- An end without a slash that is more than a dot is an end of the name. -/
theorem suffix_toString_iff {p : Path} {tail : Text} (hslash : '/' ∉ tail) (htail : tail ≠ []) :
    '.' :: tail <:+ p.toString.toList ↔ '.' :: tail <:+ p.name.toList := by
  have hending : '/' ∉ '.' :: tail := by simp [hslash]
  by_cases hparts : p.parts = []
  · have hname : p.name.toList = [] := by simp [Path.name, hparts]
    rw [hname, List.suffix_nil]
    refine iff_of_false ?_ (List.cons_ne_nil _ _)
    cases hanchor : p.anchor <;>
      simp [Path.toString, hparts, hanchor, Anchor.text, joinStrings, joinWith, List.suffix_cons_iff, htail]
  · rcases exists_toString hparts with hshown | ⟨u, hshown⟩
    · rw [hshown]
    · rw [hshown, suffix_append_slash_iff hending]

/-- Seen from another path a path keeps its name. -/
theorem name_relativeTo {base path : Path} (h : path ≠ base) :
    ((path.relativeTo? base).getD path).name = path.name := by
  unfold relativeTo?
  split
  · next hunder =>
    simp only [isUnder, Bool.and_eq_true, decide_eq_true_eq, List.isPrefixOf_iff_prefix] at hunder
    obtain ⟨hanchor, rest, hparts⟩ := hunder
    have hrest : rest ≠ [] := by
      rintro rfl
      rw [List.append_nil] at hparts
      cases base
      cases path
      exact h (by simp_all)
    rw [Option.getD_some, Path.name, Path.name]
    dsimp only
    rw [← hparts, List.drop_left, List.getLast?_append, List.getLast?_eq_some_getLast hrest, Option.some_or]
  · rfl

theorem relativeTo?_self (path : Path) : path.relativeTo? path = some ⟨.relative, []⟩ := by
  simp [relativeTo?, isUnder]

end Path

/-- A backslash counts as a slash; an end without either is not touched by that. -/
theorem suffix_map_slash_iff {ending t : Text} (hslash : '/' ∉ ending) (hback : '\\' ∉ ending) :
    ending <:+ t.map (fun c => if c = '\\' then '/' else c) ↔ ending <:+ t := by
  rw [List.suffix_map_iff]
  constructor
  · rintro ⟨s, hs, rfl⟩
    have hsame : s.map (fun c => if c = '\\' then '/' else c) = s := by
      refine (List.map_congr_left fun c hc => ?_).trans (List.map_id s)
      split
      · next hc' =>
        refine absurd (List.mem_map.mpr ⟨c, hc, ?_⟩) hslash
        rw [if_pos hc']
      · rfl
    rwa [hsame]
  · intro hs
    refine ⟨ending, hs, ((List.map_congr_left fun c hc => ?_).trans (List.map_id ending)).symm⟩
    rw [if_neg]
    · rfl
    · rintro rfl
      exact hback hc

/-! ## Sources -/

/-- The default patterns are all names with a known suffix. -/
theorem defaultInclude_eq : defaultInclude = sourceSuffixes.map fun s => "**/*" ++ s.1 := by decide

/-- Every known suffix is a dot and small letters. -/
theorem exists_tail_of_mem {suffix : String} (h : suffix ∈ sourceSuffixes.map (·.1)) :
    ∃ tail, suffix.toList = '.' :: tail ∧ tail ≠ [] ∧ '.' ∉ tail ∧ '/' ∉ tail ∧ '\\' ∉ tail ∧
      IsLiteral ('.' :: tail) ∧ lowerAscii suffix = suffix := by
  have hall : ∀ suffix ∈ sourceSuffixes.map (·.1), suffix.toList = '.' :: suffix.toList.tail ∧
      suffix.toList.tail ≠ [] ∧ '.' ∉ suffix.toList.tail ∧ '/' ∉ suffix.toList.tail ∧
      '\\' ∉ suffix.toList.tail ∧ IsLiteral ('.' :: suffix.toList.tail) ∧ lowerAscii suffix = suffix := by
    decide
  exact ⟨_, hall suffix h⟩

theorem languageOf?_isSome_iff {path : Path} :
    (languageOf? path).isSome = true ↔ lowerAscii path.suffix ∈ sourceSuffixes.map (·.1) := by
  simp [languageOf?, List.find?_isSome]

/-- A file in a known language has a suffix. -/
theorem suffixOf_ne_nil {path : Path} (h : (languageOf? path).isSome = true) :
    Path.suffixOf path.name.toList ≠ [] := by
  intro hnil
  rw [languageOf?_isSome_iff, Path.suffix, hnil] at h
  exact absurd h (by decide)

/-- A default pattern matches the files that have its suffix just so. -/
theorem globMatch_shown_iff {path : Path} (h : (languageOf? path).isSome = true) (base : Path)
    {suffix : String} (hsuffix : suffix ∈ sourceSuffixes.map (·.1)) :
    globMatch ("**/*" ++ suffix).toList (((path.relativeTo? base).getD path).toString.toList.map
      fun c => if c = '\\' then '/' else c) = true ↔ path ≠ base ∧ path.suffix = suffix := by
  obtain ⟨tail, htoList, htail, hdot, hslash, hback, hliteral, -⟩ := exists_tail_of_mem hsuffix
  have hending : '/' ∉ '.' :: tail ∧ '\\' ∉ '.' :: tail := by simp [hslash, hback]
  have hpattern : ("**/*" ++ suffix).toList = "**/*".toList ++ '.' :: tail := by
    rw [String.toList_append, htoList]
  rw [hpattern, globMatch_anyName_iff hliteral hending.1, suffix_map_slash_iff hending.1 hending.2,
    Path.suffix_toString_iff hslash htail]
  by_cases hbase : path = base
  · subst hbase
    rw [Path.relativeTo?_self]
    simp [Path.name]
  · have heq : path.suffix = suffix ↔ Path.suffixOf path.name.toList = '.' :: tail := by
      rw [Path.suffix, ← String.toList_inj, String.toList_ofList, htoList]
    rw [Path.name_relativeTo hbase, heq, Path.suffixOf_eq_iff hdot]
    simp [hbase, suffixOf_ne_nil h]

/-- **The default patterns accept the files in a known language whose suffix is in small letters.** A path is
compared as seen from a base; the base itself has no name then. -/
theorem matchesFrom_defaultInclude {path : Path} (h : (languageOf? path).isSome = true) (base : Path) :
    matchesFrom base path (defaultInclude.map .str) =
      .ok (decide (path ≠ base ∧ lowerAscii path.suffix = path.suffix)) := by
  have hsome : (∃ s ∈ sourceSuffixes, path.suffix = s.1) ↔ lowerAscii path.suffix = path.suffix := by
    have hlower := languageOf?_isSome_iff.mp h
    constructor
    · rintro ⟨s, hs, heq⟩
      obtain ⟨-, -, -, -, -, -, -, hsame⟩ := exists_tail_of_mem (List.mem_map_of_mem hs)
      rw [heq]
      exact hsame
    · intro heq
      rw [heq] at hlower
      obtain ⟨s, hs, hsuffix⟩ := List.mem_map.mp hlower
      exact ⟨s, hs, hsuffix.symm⟩
  rw [matchesFrom, anyMatch_str]
  refine congrArg _ (Bool.eq_iff_iff.mpr ?_)
  rw [decide_eq_true_iff, defaultInclude_eq, List.any_map, List.any_eq_true, ← hsome]
  constructor
  · rintro ⟨s, hs, hmatch⟩
    obtain ⟨hne, heq⟩ := (globMatch_shown_iff h base (List.mem_map_of_mem hs)).mp hmatch
    exact ⟨hne, s, hs, heq⟩
  · rintro ⟨hne, s, hs, heq⟩
    exact ⟨s, hs, (globMatch_shown_iff h base (List.mem_map_of_mem hs)).mpr ⟨hne, heq⟩⟩

/-- **A file in a known language is passed over only for its spelling.** With the default patterns for sources it
is accepted if its suffix is in small letters; what is not excluded and not accepted has another spelling. -/
theorem selection_defaultInclude {c : Config} (hc : c.included = defaultInclude.map .str) {path : Path}
    (h : (languageOf? path).isSome = true) (base : Path) :
    matchesFrom base path c.included =
        .ok (decide (path ≠ base ∧ lowerAscii path.suffix = path.suffix)) ∧
      (selection c base path = .ok .unmatched ↔ matchesFrom base path c.excluded = .ok false ∧
        (path = base ∨ lowerAscii path.suffix ≠ path.suffix)) := by
  have hincluded := matchesFrom_defaultInclude h base
  rw [hc, selection, hc, hincluded]
  refine ⟨rfl, ?_⟩
  cases matchesFrom base path c.excluded with
  | error e => simp
  | ok found =>
    cases found with
    | true => simp
    | false =>
      by_cases haccepted : path ≠ base ∧ lowerAscii path.suffix = path.suffix
      · simp [haccepted]
      · simp only [haccepted, decide_false, true_and, true_iff]
        rwa [not_and_or, not_not] at haccepted

/-- A file with a suffix in small letters is accepted from the directory above it. -/
theorem selection_defaultInclude_tsx :
    let path : Path := ⟨.relative, ["src", "app.view.tsx"]⟩
    ({} : Config).included = defaultInclude.map .str ∧ (languageOf? path).isSome = true ∧
      matchesFrom ⟨.relative, ["src"]⟩ path ({} : Config).included = .ok true := by
  intro path
  have hlanguage : (languageOf? path).isSome = true := by decide
  have hspelled : path ≠ ⟨.relative, ["src"]⟩ ∧ lowerAscii path.suffix = path.suffix := by decide
  refine ⟨rfl, hlanguage, ?_⟩
  rw [(selection_defaultInclude rfl hlanguage ⟨.relative, ["src"]⟩).1, decide_eq_true hspelled]

/-- A suffix in capitals makes a source of a file, and no default pattern accepts it. -/
theorem not_matchesFrom_capitals :
    ¬∀ path base : Path, path.anchor = .relative → '\\' ∉ path.toString.toList → path ≠ base →
      (languageOf? path).isSome = true → matchesFrom base path (defaultInclude.map .str) = .ok true := by
  intro h
  have hyes := h ⟨.relative, ["a.JS"]⟩ ⟨.relative, []⟩ rfl (by decide) (by decide) (by decide)
  have hno : matchesFrom ⟨.relative, []⟩ ⟨.relative, ["a.JS"]⟩ (defaultInclude.map .str) = .ok false := by
    decide +kernel
  rw [hno] at hyes
  cases hyes

end PatchLint
