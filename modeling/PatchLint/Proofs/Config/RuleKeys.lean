import PatchLint.Config.Validate

/-!
# Which keys name a rule

A key names a rule if its upper-case form is the code of the rule. The tables of upper-case forms know
many characters, but only one small letter leads to the `R` of a code and none to its digit, so a rule
has two spellings: its code and its code in small letters.

* `eq_or_exists_run` — where a character of an upper-case form comes from
* `upper_eq_iff` — the texts whose upper-case form is a letter and a digit
* `ruleOfKey?_eq_some_iff` — the two spellings of a rule
* `ruleOfKey?_upperKey` — upper-casing a key does not change the rule it names
-/

namespace PatchLint

namespace Text

/-! ## Characters -/

theorem upperChar_ne_nil (c : Char) : upperChar c ≠ [] := by
  intro h
  unfold upperChar at h
  split at h
  · next n cs hfind =>
    have hempty : cs = [] := List.map_eq_nil_iff.mp h
    have hmem : (n, cs) ∈ longUpper := List.mem_of_find?_eq_some hfind
    rw [hempty] at hmem
    have hlong : ∀ e ∈ longUpper, e.2 ≠ [] := by decide
    exact hlong _ hmem rfl
  · split at h <;> cases h

/-- The number of a character that is not the zero character. -/
theorem eq_toNat_of_ofNat {n : Nat} {d : Char} (h : Char.ofNat n = d) (hd : d.toNat ≠ 0) :
    n = d.toNat := by
  by_cases hn : n.isValidChar
  · rw [← h, Char.ofNat, dif_pos hn]
    rfl
  · rw [Char.ofNat, dif_neg hn] at h
    exact absurd (congrArg Char.toNat h).symm hd

/-- **Where a character of an upper-case form comes from:** from itself, from one at a fixed distance in
a run, or from the list of longer forms. -/
theorem eq_or_exists_run {c d : Char} (h : d ∈ upperChar c) (hd : d.toNat ≠ 0)
    (hlong : ∀ e ∈ longUpper, d.toNat ∉ e.2) :
    d = c ∨ ∃ run ∈ upperRuns, run.1 ≤ c.toNat ∧ c.toNat ≤ run.2.1 ∧
      (c.toNat : Int) + run.2.2.2 = d.toNat := by
  unfold upperChar at h
  split at h
  · next n cs hfind =>
    obtain ⟨m, hm, hmd⟩ := List.mem_map.mp h
    rw [eq_toNat_of_ofNat hmd hd] at hm
    exact absurd hm (hlong _ (List.mem_of_find?_eq_some hfind))
  · split at h
    · next first last step distance hfind =>
      have hrun := List.find?_some hfind
      simp only [inRun, Bool.and_eq_true, decide_eq_true_eq] at hrun
      have hnat := eq_toNat_of_ofNat (List.mem_singleton.mp h).symm hd
      exact Or.inr ⟨_, List.mem_of_find?_eq_some hfind, hrun.1.1, hrun.1.2, by dsimp only; omega⟩
    · exact Or.inl (List.mem_singleton.mp h)

/-- The digits and the small letter of the codes stand in no longer form, and no run leads to them. -/
theorem eq_of_mem_upperChar {c d : Char} (hd : d ∈ ['1', '2', '3', '4', 'r']) (h : d ∈ upperChar c) :
    d = c := by
  -- In numbers: a statement about all characters with a property would be decided by going through them all.
  have hlong : ∀ n ∈ ['1', '2', '3', '4', 'r'].map Char.toNat, n ≠ 0 ∧ ∀ e ∈ longUpper, n ∉ e.2 := by
    decide +kernel
  have hruns : ∀ n ∈ ['1', '2', '3', '4', 'r'].map Char.toNat, ∀ run ∈ upperRuns,
      ¬((run.1 : Int) + run.2.2.2 ≤ n ∧ (n : Int) ≤ run.2.1 + run.2.2.2) := by
    decide +kernel
  have hn : d.toNat ∈ ['1', '2', '3', '4', 'r'].map Char.toNat := List.mem_map_of_mem hd
  rcases eq_or_exists_run h (hlong _ hn).1 (hlong _ hn).2 with hc | ⟨run, hrun, hfirst, hlast, hsum⟩
  · exact hc
  · exact absurd ⟨by omega, by omega⟩ (hruns _ hn run hrun)

/-- Only the run of the small Latin letters leads to a capital Latin one. -/
theorem eq_of_R_mem_upperChar {c : Char} (h : 'R' ∈ upperChar c) : c = 'R' ∨ c = 'r' := by
  have hlong : ∀ e ∈ longUpper, 'R'.toNat ∉ e.2 := by decide +kernel
  have hruns : ∀ run ∈ upperRuns, (run.1 : Int) + run.2.2.2 ≤ 82 → (82 : Int) ≤ run.2.1 + run.2.2.2 →
      run.2.2.2 = -32 := by
    decide +kernel
  have hR : 'R'.toNat = 82 := rfl
  have hr : 'r'.toNat = 114 := rfl
  rcases eq_or_exists_run h (by decide) hlong with hc | ⟨run, hrun, hfirst, hlast, hsum⟩
  · exact Or.inl hc.symm
  · have hdistance := hruns run hrun (by omega) (by omega)
    exact Or.inr (Char.toNat_inj.mp (by omega))

/-- No upper-case form holds the small letter of a code. -/
theorem r_not_mem_upperChar (c : Char) : 'r' ∉ upperChar c := by
  intro h
  have hc : 'r' = c := eq_of_mem_upperChar (by decide) h
  rw [← hc] at h
  exact absurd h (by decide)

/-! ## Texts -/

theorem r_not_mem_upper (t : Text) : 'r' ∉ upper t := by
  intro h
  obtain ⟨c, -, hc⟩ := List.mem_flatMap.mp h
  exact r_not_mem_upperChar c hc

/-- The first character of an upper-case form comes from the first character. -/
theorem exists_of_upper_eq_cons {x : Char} {s t : Text} (h : upper t = x :: s)
    (hx : ∀ c, x ∈ upperChar c → upperChar c = [x]) :
    ∃ c t', t = c :: t' ∧ x ∈ upperChar c ∧ upper t' = s := by
  cases t with
  | nil => cases h
  | cons c t =>
    have happend : upperChar c ++ upper t = x :: s := h
    obtain ⟨y, ys, hy⟩ := List.exists_cons_of_ne_nil (upperChar_ne_nil c)
    have hmem : x ∈ upperChar c := by
      rw [hy] at happend ⊢
      rw [(List.cons.inj happend).1]
      exact List.mem_cons_self
    rw [hx c hmem] at happend
    exact ⟨c, t, rfl, hmem, (List.cons.inj happend).2⟩

theorem eq_nil_of_upper_eq_nil {t : Text} (h : upper t = []) : t = [] := by
  cases t with
  | nil => rfl
  | cons c t => exact absurd (List.append_eq_nil_iff.mp h).1 (upperChar_ne_nil c)

/-- **The texts whose upper-case form is a letter and a digit.** -/
theorem upper_eq_iff {d : Char} (hd : d ∈ ['1', '2', '3', '4']) {t : Text} :
    upper t = ['R', d] ↔ t = ['R', d] ∨ t = ['r', d] := by
  have hdigit : upperChar d = [d] := by
    simp only [List.mem_cons, List.not_mem_nil, or_false] at hd
    rcases hd with rfl | rfl | rfl | rfl <;> decide
  have hd' : d ∈ ['1', '2', '3', '4', 'r'] := List.mem_append_left ['r'] hd
  constructor
  · intro h
    have hletter (c : Char) (hc : 'R' ∈ upperChar c) : upperChar c = ['R'] := by
      rcases eq_of_R_mem_upperChar hc with rfl | rfl <;> decide
    have hdigits (c : Char) (hc : d ∈ upperChar c) : upperChar c = [d] := by
      rw [← eq_of_mem_upperChar hd' hc, hdigit]
    obtain ⟨c, t, rfl, hc, ht⟩ := exists_of_upper_eq_cons h hletter
    obtain ⟨c', t, rfl, hc', ht'⟩ := exists_of_upper_eq_cons ht hdigits
    rw [← eq_of_mem_upperChar hd' hc', eq_nil_of_upper_eq_nil ht']
    rcases eq_of_R_mem_upperChar hc with rfl | rfl
    · exact Or.inl rfl
    · exact Or.inr rfl
  · have hR : upperChar 'R' = ['R'] ∧ upperChar 'r' = ['R'] := by decide
    rintro (rfl | rfl) <;> simp [upper, hR, hdigit]

end Text

/-! ## Keys -/

/-- A search by name finds what has the name, if it finds everything by its own name. -/
theorem find?_name_eq_some_iff {α : Type} {all : List α} {nameOf : α → String}
    (h : ∀ a, all.find? (nameOf · == nameOf a) = some a) {name : String} {a : α} :
    all.find? (nameOf · == name) = some a ↔ name = nameOf a := by
  constructor
  · intro hfind
    have hname := List.find?_some hfind
    exact (beq_iff_eq.mp hname).symm
  · rintro rfl
    exact h a

theorem Rule.ofCode?_eq_some_iff {code : String} {r : Rule} :
    Rule.ofCode? code = some r ↔ code = r.code := find?_name_eq_some_iff Rule.ofCode?_code

/-- A key in upper case. -/
def upperKey (key : String) : String := String.ofList (Text.upper key.toList)

theorem ruleOfKey?_eq_some_iff_upperKey {key : String} {r : Rule} :
    ruleOfKey? key = some r ↔ upperKey key = r.code := Rule.ofCode?_eq_some_iff

/-- **A rule has two spellings.** -/
theorem ruleOfKey?_eq_some_iff {key : String} {r : Rule} :
    ruleOfKey? key = some r ↔ key = r.code ∨ key = lowerAscii r.code := by
  have hcode : ∃ d ∈ ['1', '2', '3', '4'], r.code.toList = ['R', d] ∧
      (lowerAscii r.code).toList = ['r', d] := by
    cases r with
    | unusedImport => exact ⟨'1', by decide⟩
    | missingImport => exact ⟨'2', by decide⟩
    | nullAccess => exact ⟨'3', by decide⟩
    | missingAwait => exact ⟨'4', by decide⟩
  obtain ⟨d, hd, hupper, hlower⟩ := hcode
  rw [ruleOfKey?_eq_some_iff_upperKey, ← String.toList_inj, ← String.toList_inj, ← String.toList_inj,
    hupper, hlower, upperKey, String.toList_ofList, Text.upper_eq_iff hd]

/-- **Upper-casing a key does not change the rule it names.** What is in upper case holds no small
letter of a code, so the second spelling cannot arise by it. -/
theorem ruleOfKey?_upperKey (key : String) : ruleOfKey? (upperKey key) = ruleOfKey? key := by
  refine Option.ext fun r => ?_
  rw [ruleOfKey?_eq_some_iff, ruleOfKey?_eq_some_iff_upperKey, or_iff_left]
  intro hlower
  have hr : 'r' ∈ (lowerAscii r.code).toList := by cases r <;> decide
  rw [← hlower, upperKey, String.toList_ofList] at hr
  exact Text.r_not_mem_upper _ hr

end PatchLint
