import PatchLint.Proofs.Json.Balanced

/-!
# Readers with a limit

A reader breaks off at a level that is too deep only in a text with more opening brackets and braces than
levels. One without a limit never does, and one with a limit always does where a text starts with more brackets
than that.

* `ExceedsLimit` — a text has more openings than a reader has levels
* `levels_lt_of_nesting` — a reading that goes too deep has passed more openings than it has levels
* `exceedsLimit_of_parseWithin` — so a whole text that goes too deep exceeds the limit of its reader
* `parseWithin_brackets` — a text of too many brackets in a row goes too deep
-/

namespace PatchLint.Json

/-- Whether a character opens a list or an object. -/
def isOpening (c : Char) : Bool := c = '{' || c = '['

/-- A text has more openings than a reader has levels. No text has, if the reader has no limit. -/
def ExceedsLimit (limit : Option Nat) (t : Text) : Prop := ∃ n, limit = some n ∧ n < t.countP isOpening

variable {fuel levels : Nat} {limit : Option Nat} {t r rest : Text}

theorem ExceedsLimit.of_sublist (h : ExceedsLimit limit r) (hsub : r.Sublist t) :
    ExceedsLimit limit t := by
  obtain ⟨n, hlimit, hcount⟩ := h
  exact ⟨n, hlimit, Nat.lt_of_lt_of_le hcount hsub.countP_le⟩

/-- What is left of a text has no more openings than the whole. -/
theorem Passes.countP_le (h : Passes t rest) : rest.countP isOpening ≤ t.countP isOpening := by
  obtain ⟨u, rfl, -⟩ := h
  rw [List.countP_append]
  exact Nat.le_add_left _ _

/-- A reading that goes too deep has passed more openings than it has levels. -/
theorem levels_lt_of_nesting (fuel : Nat) {f : Fault} (hf : f.cause.isNesting = true) :
    (∀ {levels : Nat} {t : Text}, readValue fuel levels t = .error f →
      levels < t.countP isOpening) ∧
    (∀ {levels : Nat} {seen : List Json} {t : Text}, readItems fuel levels seen t = .error f →
      levels < t.countP isOpening) ∧
    (∀ {levels : Nat} {seen : List (String × Json)} {t : Text},
      readFields fuel levels seen t = .error f → levels < t.countP isOpening) := by
  induction fuel with
  | zero =>
    refine ⟨fun h => ?_, fun h => ?_, fun h => ?_⟩
    all_goals
      cases h
      cases hf
  | succ fuel ih =>
    obtain ⟨ihValue, ihItems, ihFields⟩ := ih
    refine ⟨fun {levels t} h => ?value, fun {levels seen t} h => ?items,
      fun {levels seen t} h => ?fields⟩
    case value =>
      obtain ⟨c, cs, rfl, hopen, hdeep⟩ := readValue_nesting h hf
      have hc : isOpening c = true := by rcases hopen with rfl | rfl <;> rfl
      -- the opening that takes up a level is the first character
      rw [List.countP_cons_of_pos hc]
      rcases hdeep with rfl | ⟨n, m, hn, rfl, hinner⟩
      · exact Nat.succ_pos _
      · cases hn
        refine Nat.succ_lt_succ (Nat.lt_of_lt_of_le ?_ (Passes.blanks cs).countP_le)
        rcases hinner with hmembers | hitems
        · exact ihFields hmembers
        · exact ihItems hitems
    case items =>
      obtain ⟨n, hn, hvalue | ⟨w, r, r', hvalue, hcomma, hitems⟩⟩ := readItems_nesting h hf
      · cases hn
        exact ihValue hvalue
      · cases hn
        have hitem : Passes t (',' :: r') := hcomma ▸ ((passes_of_read fuel).1 hvalue).trans (.blanks r)
        have hnext : Passes t (skipBlanks r') := hitem.trans (.plain (by decide) (.blanks r'))
        exact Nat.lt_of_lt_of_le (ihItems hitems) hnext.countP_le
    case fields =>
      obtain ⟨n, cs, key, r₁, r₂, hn, rfl, hkey, hcolon, hcases⟩ := readFields_nesting h hf
      cases hn
      have hname : Passes ('"' :: cs) (':' :: r₂) :=
        hcolon ▸ (passes_of_readString hkey).trans (.blanks r₁)
      have hmember : Passes ('"' :: cs) (skipBlanks r₂) :=
        hname.trans (.plain (by decide) (.blanks r₂))
      rcases hcases with hvalue | ⟨w, r₃, r₄, hvalue, hcomma, hmembers⟩
      · exact Nat.lt_of_lt_of_le (ihValue hvalue) hmember.countP_le
      · have hend : Passes ('"' :: cs) (',' :: r₄) :=
          hcomma ▸ (hmember.trans ((passes_of_read fuel).1 hvalue)).trans (.blanks r₃)
        have hnext : Passes ('"' :: cs) (skipBlanks r₄) :=
          hend.trans (.plain (by decide) (.blanks r₄))
        exact Nat.lt_of_lt_of_le (ihFields hmembers) hnext.countP_le

/-- A text that goes too deep has more openings than its reader has levels. -/
theorem exceedsLimit_of_parseWithin {f : Fault} (h : parseWithin limit t = .error f)
    (hf : f.cause.isNesting = true) : ExceedsLimit limit t := by
  unfold parseWithin at h
  split at h
  · cases h
    cases hf
  split at h
  · next g hvalue =>
    cases h
    have hdeep := (levels_lt_of_nesting _ hf).1 hvalue
    have hcount := (Passes.blanks t).countP_le
    cases limit with
    | none =>
      have hlength := List.countP_le_length (p := isOpening) (l := t)
      simp only [Option.getD_none] at hdeep
      omega
    | some n => exact ⟨n, rfl, Nat.lt_of_lt_of_le hdeep hcount⟩
  · split at h
    · cases h
    · cases h
      cases hf

/-! ## Brackets in a row -/

/-- A reader breaks off at the first bracket that it has no level for. -/
theorem readValue_brackets (rest : Text) (hfuel : 2 * levels < fuel) :
    readValue fuel levels (List.replicate (levels + 1) '[' ++ rest)
      = .error ⟨.nesting "array", '[' :: rest⟩ := by
  induction levels generalizing fuel with
  | zero =>
    cases fuel with
    | zero => omega
    | succ n => rfl
  | succ m ih =>
    obtain ⟨n, rfl⟩ : ∃ n, fuel = n + 2 := ⟨fuel - 2, by omega⟩
    have hblanks : skipBlanks (List.replicate (m + 1) '[' ++ rest)
        = '[' :: (List.replicate m '[' ++ rest) := rfl
    rw [List.replicate_succ, List.cons_append, readValue_list hblanks (by decide), readItems,
      ← List.cons_append, ← List.replicate_succ, ih (by omega)]

theorem parseWithin_brackets (n : Nat) (rest : Text) :
    parseWithin (some n) (List.replicate (n + 1) '[' ++ rest)
      = .error ⟨.nesting "array", '[' :: rest⟩ := by
  unfold parseWithin
  have hblanks : skipBlanks (List.replicate (n + 1) '[' ++ rest)
      = List.replicate (n + 1) '[' ++ rest := rfl
  have hfuel : 2 * n < 2 * (List.replicate (n + 1) '[' ++ rest).length + 2 := by
    rw [List.length_append, List.length_replicate]
    omega
  have hmark : (List.replicate (n + 1) '[' ++ rest).head? ≠ some (Char.ofNat 0xFEFF) := by
    show some '[' ≠ some (Char.ofNat 0xFEFF)
    decide
  rw [if_neg hmark, hblanks, Option.getD_some,
    readValue_brackets rest hfuel]

end PatchLint.Json
