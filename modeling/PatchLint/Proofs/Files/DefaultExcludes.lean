import PatchLint.Proofs.Files.DefaultPatterns

/-!
# What the default patterns leave out

The default patterns for files that are left out come in four shapes: a directory of a name anywhere on the path,
a component that starts with a dot, a directory of a name at the front, and an end of the path. Together they say
something about the components of the path, at any depth (`LeftOut`).

* `globMatch_directory_iff`, `globMatch_hidden_iff`, `globMatch_front_iff` — the shapes, one by one
* `anyMatch_defaultExclude` — all of them, for any text
* `matchesFrom_defaultExclude` — the same for a path as seen from a base
-/

namespace PatchLint

open Text (pieces joinWith)

variable {t : Text}

/-! ## A directory of a name -/

/-- A name between double stars matches the paths with a directory of this name. -/
theorem globMatch_directory_iff (name : Text) (hliteral : IsLiteral name) :
    globMatch ("**/".toList ++ name ++ "/**".toList) t = true ↔ name ∈ (pieces '/' t).dropLast := by
  simp only [globMatch_around, simpleMatch_of_isLiteral hliteral, exists_eq_right]

/-! ## A component that starts with a dot -/

/-- A dot and a star match the texts that start with a dot. -/
theorem simpleMatch_hidden_iff : simpleMatch ".*".toList t = true ↔ t.head? = some '.' := by
  have hread : readGlob ".*".toList = [.literal '.', .star] := by decide +kernel
  rw [simpleMatch, hread]
  cases t with
  | nil => simp [itemsMatch]
  | cons c t => simp [itemsMatch, mem_suffixes, GlobItem.admits, eq_comm (a := c)]

/-- A path starts like its first component, unless it starts with a slash. -/
theorem head?_joinWith_iff {c : Char} (hc : c ≠ '/') (p : Text) (ps : List Text) :
    (joinWith ['/'] (p :: ps)).head? = some c ↔ p.head? = some c := by
  cases ps with
  | nil => rfl
  | cons q ps =>
    cases p with
    | nil => simp [joinWith, hc.symm]
    | cons d p => simp [joinWith]

/-- A dot and a star behind double stars match the paths with a component that starts with a dot. -/
theorem globMatch_hidden_iff :
    globMatch ("**/".toList ++ ".*".toList) t = true ↔ ∃ name ∈ pieces '/' t, name.head? = some '.' := by
  rw [globMatch_leading (by decide)]
  simp only [MatchesEnd, simpleMatch_hidden_iff]
  constructor
  · rintro ⟨rest, hne, hrest, hhead⟩
    obtain ⟨p, ps, rfl⟩ := List.exists_cons_of_ne_nil hne
    exact ⟨p, hrest.subset List.mem_cons_self, (head?_joinWith_iff (by decide) p ps).mp hhead⟩
  · rintro ⟨p, hp, hhead⟩
    obtain ⟨front, ps, hsplit⟩ := List.append_of_mem hp
    exact ⟨p :: ps, List.cons_ne_nil _ _, ⟨front, hsplit.symm⟩, (head?_joinWith_iff (by decide) p ps).mpr hhead⟩

/-! ## A directory at the front -/

/-- A name in front of double stars matches the paths that start with this name. -/
theorem globMatch_front_iff (name : Text) (hslash : '/' ∉ name) (hname : name ≠ doubleStar) :
    globMatch (name ++ "/**".toList) t = true ↔ (pieces '/' t).head? = some name := by
  have hpieces : pieces '/' name = [name] := Text.pieces_of_not_mem hslash
  rw [globMatch_trailing (by simpa [hpieces] using hname.symm)]
  constructor
  · rintro (rfl | ⟨below, rfl⟩)
    · rw [hpieces, List.head?_cons]
    · rw [List.append_assoc, List.singleton_append, Text.pieces_append_cons name below hslash, List.head?_cons]
  · intro hhead
    obtain ⟨ps, hps⟩ := List.head?_eq_some_iff.mp hhead
    refine eq_or_below_iff.mpr ⟨[name], List.cons_ne_nil _ _, ⟨ps, ?_⟩, rfl⟩
    rw [hps, List.singleton_append]

/-! ## All of them -/

/-- Whether the default patterns leave out a path with these components: it has a directory of installed packages,
a hidden component, a directory of built files in front, or the end of a minified file. -/
def LeftOut (names : List Text) : Prop :=
  "node_modules".toList ∈ names.dropLast ∨ (∃ name ∈ names, name.head? = some '.') ∨
    names.head? ∈ [some "dist".toList, some "build".toList, some "coverage".toList] ∨
    ".min.js".toList <:+ joinWith ['/'] names

instance (names : List Text) : Decidable (LeftOut names) :=
  inferInstanceAs (Decidable (_ ∨ _ ∨ _ ∨ _))

/-- **The default patterns leave a text out by its components.** -/
theorem anyMatch_defaultExclude (t : Text) :
    anyMatch t (defaultExclude.map .str) = .ok (decide (LeftOut (pieces '/' t))) := by
  have hmodules : globMatch "**/node_modules/**".toList t = true ↔
      "node_modules".toList ∈ (pieces '/' t).dropLast :=
        globMatch_directory_iff "node_modules".toList (by decide)
  have hgit : globMatch "**/.git/**".toList t = true ↔ ".git".toList ∈ (pieces '/' t).dropLast :=
    globMatch_directory_iff ".git".toList (by decide)
  have hhidden : globMatch "**/.*".toList t = true ↔ ∃ name ∈ pieces '/' t, name.head? = some '.' :=
    globMatch_hidden_iff
  have hdist : globMatch "dist/**".toList t = true ↔ (pieces '/' t).head? = some "dist".toList :=
    globMatch_front_iff "dist".toList (by decide) (by decide)
  have hbuild : globMatch "build/**".toList t = true ↔ (pieces '/' t).head? = some "build".toList :=
    globMatch_front_iff "build".toList (by decide) (by decide)
  have hcoverage : globMatch "coverage/**".toList t = true ↔ (pieces '/' t).head? = some "coverage".toList :=
    globMatch_front_iff "coverage".toList (by decide) (by decide)
  have hending : IsLiteral ".min.js".toList := by decide
  have hminified : globMatch "**/*.min.js".toList t = true ↔ ".min.js".toList <:+ t :=
    globMatch_anyName_iff hending (by decide)
  -- a directory of this name is a hidden component, so its pattern adds nothing
  have hsubsumed : ".git".toList ∈ (pieces '/' t).dropLast → ∃ name ∈ pieces '/' t, name.head? = some '.' :=
    fun h => ⟨_, (List.dropLast_sublist _).subset h, rfl⟩
  have habsorbed (p : Prop) : ((∃ name ∈ pieces '/' t, name.head? = some '.') ∨
      ".git".toList ∈ (pieces '/' t).dropLast ∨ p) ↔ (∃ name ∈ pieces '/' t, name.head? = some '.') ∨ p := by
    rw [← or_assoc, or_iff_left_of_imp hsubsumed]
  rw [anyMatch_str]
  refine congrArg _ (Bool.eq_iff_iff.mpr ?_)
  simp only [defaultExclude, List.any_cons, List.any_nil, Bool.or_eq_true, Bool.or_false, hmodules, hgit, hhidden,
    hdist, hbuild, hcoverage, hminified, habsorbed, decide_eq_true_iff, LeftOut, List.mem_cons, List.not_mem_nil,
    or_false, or_assoc, Text.joinWith_pieces]

/-! ## Paths -/

theorem mem_joinWith {c : Char} {sep : Text} {ls : List Text} (h : c ∈ joinWith sep ls) :
    c ∈ sep ∨ ∃ l ∈ ls, c ∈ l := by
  fun_induction joinWith sep ls with
  | case1 => cases h
  | case2 l => exact Or.inr ⟨l, List.mem_singleton_self l, h⟩
  | case3 l m ls ih =>
    rw [List.mem_append, List.mem_append] at h
    rcases h with (hl | hsep) | hrest
    · exact Or.inr ⟨l, List.mem_cons_self, hl⟩
    · exact Or.inl hsep
    · obtain hsep | ⟨k, hk, hc⟩ := ih hrest
      · exact Or.inl hsep
      · exact Or.inr ⟨k, List.mem_cons_of_mem _ hk, hc⟩

/-- A relative path is shown as its components, a slash between neighbours. -/
theorem toList_toString_relative {p : Path} (hanchor : p.anchor = .relative) (hparts : p.parts ≠ []) :
    p.toString.toList = joinWith ['/'] (p.parts.map String.toList) := by
  rw [Path.toString, if_neg (by simp [hparts]), hanchor, String.toList_append, joinStrings, String.toList_ofList]
  rfl

/-- **The default patterns leave a path out by its components,** as it is seen from a base. The base itself is
shown as a dot, so it counts as hidden. -/
theorem matchesFrom_defaultExclude {base path rel : Path} (hrel : (path.relativeTo? base).getD path = rel)
    (hanchor : rel.anchor = .relative) (hnames : ∀ name ∈ rel.parts, '/' ∉ name.toList ∧ '\\' ∉ name.toList) :
    matchesFrom base path (defaultExclude.map .str) =
      .ok (decide (rel.parts = [] ∨ LeftOut (rel.parts.map String.toList))) := by
  rw [matchesFrom, hrel, anyMatch_defaultExclude]
  refine congrArg _ (decide_eq_decide.mpr ?_)
  by_cases hparts : rel.parts = []
  · have hshown : rel.toString = "." := by rw [Path.toString, if_pos (by simp [hanchor, hparts])]
    rw [hshown]
    exact iff_of_true (by decide) (Or.inl hparts)
  · rw [toList_toString_relative hanchor hparts]
    have hsame : ((joinWith ['/'] (rel.parts.map String.toList)).map fun c => if c = '\\' then '/' else c) =
        joinWith ['/'] (rel.parts.map String.toList) := by
      refine (List.map_congr_left fun c hc => if_neg ?_).trans (List.map_id _)
      rintro rfl
      rcases mem_joinWith hc with hsep | ⟨l, hl, hback⟩
      · exact absurd hsep (by decide)
      · obtain ⟨name, hname, rfl⟩ := List.mem_map.mp hl
        exact (hnames name hname).2 hback
    have hslash : ∀ l ∈ rel.parts.map String.toList, '/' ∉ l := by
      intro l hl
      obtain ⟨name, hname, rfl⟩ := List.mem_map.mp hl
      exact (hnames name hname).1
    rw [hsame, Text.pieces_joinWith (by simpa using hparts) hslash]
    simp only [hparts, false_or]

/-- A hidden directory deep in a project is left out, and a directory of built files that is not at the front is
not; seen from the directory above it, it is. -/
theorem matchesFrom_defaultExclude_dist :
    matchesFrom ⟨.root, ["app"]⟩ ⟨.root, ["app", "src", ".cache", "a.js"]⟩ (defaultExclude.map .str) = .ok true ∧
      matchesFrom ⟨.root, ["app"]⟩ ⟨.root, ["app", "src", "dist", "a.js"]⟩ (defaultExclude.map .str) = .ok false ∧
      matchesFrom ⟨.root, ["app", "src"]⟩ ⟨.root, ["app", "src", "dist", "a.js"]⟩ (defaultExclude.map .str) =
        .ok true := by
  have hhidden := @matchesFrom_defaultExclude ⟨.root, ["app"]⟩ ⟨.root, ["app", "src", ".cache", "a.js"]⟩
    ⟨.relative, ["src", ".cache", "a.js"]⟩ (by decide) rfl (by decide)
  have hinner := @matchesFrom_defaultExclude ⟨.root, ["app"]⟩ ⟨.root, ["app", "src", "dist", "a.js"]⟩
    ⟨.relative, ["src", "dist", "a.js"]⟩ (by decide) rfl (by decide)
  have hfront := @matchesFrom_defaultExclude ⟨.root, ["app", "src"]⟩ ⟨.root, ["app", "src", "dist", "a.js"]⟩
    ⟨.relative, ["dist", "a.js"]⟩ (by decide) rfl (by decide)
  rw [hhidden, hinner, hfront]
  decide

end PatchLint
