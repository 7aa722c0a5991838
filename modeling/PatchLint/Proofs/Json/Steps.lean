import PatchLint.Json.Reader

/-!
# One step of the JSON reader

What it takes for a value, the items of a list or the members of an object to be read, and what it takes
for the reader to break off because a text goes too deep. Each lemma opens its reader once; all that is
said about whole readings goes by induction over the fuel and by these cases.

* `readCodeEscape_eq_ok_iff`, `readEscape_cases` — how an escape is read
* `readValue_cases`, `readItems_cases`, `readFields_cases` — how a reading succeeds
* `readValue_object`, `readValue_list`, `readItems_next`, `readItems_close`, `readFields_next`, `readFields_close` —
  what comes of a step whose parts are known
* `readValue_nesting`, `readItems_nesting`, `readFields_nesting` — how a reading goes too deep
-/

namespace PatchLint.Json

variable {fuel levels : Nat} {t rest : Text} {v : Json}

/-! ## Escapes -/

/-- Whether the code of a first half is followed by enough text for a second escape to be looked at. -/
def hasPartner (high : Nat) (t : Text) : Bool :=
  isHighHalf high && "\\u".toList.isPrefixOf (t.drop 4) && 6 < (t.drop 4).length

theorem hasPartner_iff {high : Nat} :
    hasPartner high t = true ↔
      isHighHalf high = true ∧ ∃ second, t.drop 4 = '\\' :: 'u' :: second ∧ 4 < second.length := by
  have hmark : "\\u".toList = ['\\', 'u'] := by decide
  simp only [hasPartner, hmark, Bool.and_eq_true, List.isPrefixOf_iff_prefix, decide_eq_true_eq]
  constructor
  · rintro ⟨⟨hhigh, second, heq⟩, hlength⟩
    refine ⟨hhigh, second, heq.symm, ?_⟩
    rw [← heq] at hlength
    simp only [List.cons_append, List.nil_append, List.length_cons] at hlength
    omega
  · rintro ⟨hhigh, second, heq, hlength⟩
    refine ⟨⟨hhigh, second, heq.symm⟩, ?_⟩
    rw [heq]
    simp only [List.length_cons]
    omega

/-- The escape of a code stands for the code alone or, with the second half behind it, for a pair. -/
theorem readCodeEscape_eq_ok_iff {ch : Char} {n : Nat} :
    readCodeEscape t = .ok (ch, n) ↔
      5 ≤ t.length ∧ ∃ high, readCode? t = some high ∧
        ((hasPartner high t = false ∧ ch = charOfCode high ∧ n = 4) ∨
        (hasPartner high t = true ∧ ∃ low, readCode? (t.drop 6) = some low ∧
          ((isLowHalf low = false ∧ ch = charOfCode high ∧ n = 4) ∨
          (isLowHalf low = true ∧ ch = charOfPair high low ∧ n = 10)))) := by
  unfold readCodeEscape
  simp only [List.drop_drop, Nat.reduceAdd]
  constructor
  · intro h
    split at h
    · cases h
    next hlength =>
    refine ⟨Nat.not_lt.mp hlength, ?_⟩
    split at h
    · cases h
    next high hhigh =>
    refine ⟨high, hhigh, ?_⟩
    split at h
    · next hpartner =>
      refine Or.inr ⟨hpartner, ?_⟩
      split at h
      · cases h
      next low hlow =>
      refine ⟨low, hlow, ?_⟩
      split at h
      all_goals simp only [Except.ok.injEq, Prod.mk.injEq] at h
      · next hpair => exact Or.inr ⟨hpair, h.1.symm, h.2.symm⟩
      · next hpair => exact Or.inl ⟨Bool.eq_false_iff.mpr hpair, h.1.symm, h.2.symm⟩
    · next hpartner =>
      simp only [Except.ok.injEq, Prod.mk.injEq] at h
      exact Or.inl ⟨Bool.eq_false_iff.mpr hpartner, h.1.symm, h.2.symm⟩
  · rintro ⟨hlength, high, hhigh, hcases⟩
    rw [if_neg (Nat.not_lt.mpr hlength), hhigh]
    show (if hasPartner high t = true then _ else _) = _
    rcases hcases with ⟨hpartner, hch, hn⟩ | ⟨hpartner, low, hlow, hcases⟩
    · rw [if_neg (Bool.eq_false_iff.mp hpartner), hch, hn]
    · rw [if_pos hpartner, hlow]
      rcases hcases with ⟨hpair, hch, hn⟩ | ⟨hpair, hch, hn⟩
      · rw [hch, hn]
        exact if_neg (Bool.eq_false_iff.mp hpair)
      · rw [hch, hn]
        exact if_pos hpair

/-- An escape is a code behind its mark or a single letter. -/
theorem readEscape_cases {start : Text} {ch : Char} {n : Nat}
    (h : readEscape start t = .ok (ch, n)) :
    ∃ c cs, t = c :: cs ∧
      ((c = 'u' ∧ ∃ k, n = k + 1 ∧ readCodeEscape cs = .ok (ch, k)) ∨
      (c ≠ 'u' ∧ n = 1 ∧ simpleEscape? c = some ch)) := by
  unfold readEscape at h
  split at h
  · cases h
  next c cs =>
  refine ⟨c, cs, rfl, ?_⟩
  split at h
  · next hu =>
    split at h
    · cases h
    · next ch' k hcode =>
      cases h
      exact Or.inl ⟨hu, k, rfl, hcode⟩
  · next hu =>
    split at h
    · next ch' hsimple =>
      cases h
      exact Or.inr ⟨hu, rfl, hsimple⟩
    · cases h

/-! ## Readings that succeed -/

/-- A value is a text, an object, a list, a word or a number. -/
theorem readValue_cases (h : readValue fuel levels t = .ok (v, rest)) :
    ∃ n c cs, fuel = n + 1 ∧ t = c :: cs ∧
      ((c = '"' ∧ ∃ s, readString t [] cs = .ok (s, rest) ∧ v = .str (String.ofList s)) ∨
      (c = '{' ∧ ∃ m, levels = m + 1 ∧ ((skipBlanks cs = '}' :: rest ∧ v = .obj []) ∨
        readFields n m [] (skipBlanks cs) = .ok (v, rest))) ∨
      (c = '[' ∧ ∃ m, levels = m + 1 ∧ ((skipBlanks cs = ']' :: rest ∧ v = .arr []) ∨
        readItems n m [] (skipBlanks cs) = .ok (v, rest))) ∨
      (c ≠ '"' ∧ c ≠ '{' ∧ c ≠ '[' ∧ (readWord? t = some (v, rest) ∨
        readWord? t = none ∧ readNumber t = .ok (v, rest)))) := by
  cases fuel with
  | zero => simp [readValue] at h
  | succ n =>
    cases t with
    | nil => simp [readValue] at h
    | cons c cs =>
      refine ⟨n, c, cs, rfl, rfl, ?_⟩
      rw [readValue.eq_def] at h
      dsimp only at h
      by_cases hquote : c = '"'
      · rw [if_pos hquote] at h
        split at h
        · cases h
        · next s r hread =>
          cases h
          exact Or.inl ⟨hquote, s, hread, rfl⟩
      rw [if_neg hquote] at h
      by_cases hbrace : c = '{'
      · rw [if_pos hbrace] at h
        refine Or.inr (Or.inl ⟨hbrace, ?_⟩)
        cases levels with
        | zero => cases h
        | succ m =>
          refine ⟨m, rfl, ?_⟩
          dsimp only at h
          split at h
          · next r hclose =>
            cases h
            exact Or.inl ⟨hclose, rfl⟩
          · exact Or.inr h
      rw [if_neg hbrace] at h
      by_cases hbracket : c = '['
      · rw [if_pos hbracket] at h
        refine Or.inr (Or.inr (Or.inl ⟨hbracket, ?_⟩))
        cases levels with
        | zero => cases h
        | succ m =>
          refine ⟨m, rfl, ?_⟩
          dsimp only at h
          split at h
          · next r hclose =>
            cases h
            exact Or.inl ⟨hclose, rfl⟩
          · exact Or.inr h
      rw [if_neg hbracket] at h
      refine Or.inr (Or.inr (Or.inr ⟨hquote, hbrace, hbracket, ?_⟩))
      split at h
      · next found hword =>
        simp only [Except.ok.injEq] at h
        exact Or.inl (h ▸ hword)
      · next hword => exact Or.inr ⟨hword, h⟩

/-- An item is followed by the end of its list or by the next item. -/
theorem readItems_cases {seen : List Json} (h : readItems fuel levels seen t = .ok (v, rest)) :
    ∃ n w r, fuel = n + 1 ∧ readValue n levels t = .ok (w, r) ∧
      ((skipBlanks r = ']' :: rest ∧ v = .arr (w :: seen).reverse) ∨
      ∃ r', skipBlanks r = ',' :: r' ∧
        readItems n levels (w :: seen) (skipBlanks r') = .ok (v, rest)) := by
  cases fuel with
  | zero => simp [readItems] at h
  | succ n =>
    rw [readItems] at h
    split at h
    · cases h
    · next w r hvalue =>
      refine ⟨n, w, r, rfl, hvalue, ?_⟩
      split at h
      · next r' hclose =>
        cases h
        exact Or.inl ⟨hclose, rfl⟩
      · next r' hcomma => exact Or.inr ⟨r', hcomma, h⟩
      · cases h

/-- A member is a name, a colon and a value, followed by the end of its object or by the next member. -/
theorem readFields_cases {seen : List (String × Json)}
    (h : readFields fuel levels seen t = .ok (v, rest)) :
    ∃ n cs key r₁ r₂ w r₃, fuel = n + 1 ∧ t = '"' :: cs ∧ readString t [] cs = .ok (key, r₁) ∧
      skipBlanks r₁ = ':' :: r₂ ∧ readValue n levels (skipBlanks r₂) = .ok (w, r₃) ∧
      ((skipBlanks r₃ = '}' :: rest ∧ v = .obj (insertField (String.ofList key) w seen)) ∨
      ∃ r₄, skipBlanks r₃ = ',' :: r₄ ∧
        readFields n levels (insertField (String.ofList key) w seen) (skipBlanks r₄)
          = .ok (v, rest)) := by
  cases fuel with
  | zero => simp [readFields] at h
  | succ n =>
    rw [readFields.eq_def] at h
    dsimp only at h
    split at h
    · next cs =>
      split at h
      · cases h
      · next key r₁ hkey =>
        split at h
        · next r₂ hcolon =>
          split at h
          · cases h
          · next w r₃ hvalue =>
            refine ⟨n, cs, key, r₁, r₂, w, r₃, rfl, rfl, hkey, hcolon, hvalue, ?_⟩
            split at h
            · next r₄ hclose =>
              cases h
              exact Or.inl ⟨hclose, rfl⟩
            · next r₄ hcomma => exact Or.inr ⟨r₄, hcomma, h⟩
            · cases h
        · cases h
    · cases h

/-! ## Steps of a reading -/

theorem readValue_object_nil {n m : Nat} {cs : Text} (h : skipBlanks cs = '}' :: rest) :
    readValue (n + 1) (m + 1) ('{' :: cs) = .ok (.obj [], rest) := by
  simp [readValue, h]

theorem readValue_list_nil {n m : Nat} {cs : Text} (h : skipBlanks cs = ']' :: rest) :
    readValue (n + 1) (m + 1) ('[' :: cs) = .ok (.arr [], rest) := by
  simp [readValue, h]

/-- An object that is not closed at once has members. -/
theorem readValue_object {n m : Nat} {c : Char} {cs r : Text} (h : skipBlanks cs = c :: r)
    (hc : c ≠ '}') : readValue (n + 1) (m + 1) ('{' :: cs) = readFields n m [] (c :: r) := by
  simp [readValue, h, hc]

/-- A list that is not closed at once has items. -/
theorem readValue_list {n m : Nat} {c : Char} {cs r : Text} (h : skipBlanks cs = c :: r)
    (hc : c ≠ ']') : readValue (n + 1) (m + 1) ('[' :: cs) = readItems n m [] (c :: r) := by
  simp [readValue, h, hc]

/-- A list that does not end with an item goes on with the next one. -/
theorem readItems_next {n : Nat} {r : Text} {seen : List Json} (hvalue : readValue n levels t = .ok (v, r))
    (hcomma : skipBlanks r = ',' :: rest) :
    readItems (n + 1) levels seen t = readItems n levels (v :: seen) (skipBlanks rest) := by
  simp only [readItems, hvalue, hcomma]

theorem readItems_close {n : Nat} {r : Text} {seen : List Json} (hvalue : readValue n levels t = .ok (v, r))
    (hclose : skipBlanks r = ']' :: rest) :
    readItems (n + 1) levels seen t = .ok (.arr (v :: seen).reverse, rest) := by
  simp only [readItems, hvalue, hclose]

/-- An object that does not end with a member goes on with the next one. -/
theorem readFields_next {n : Nat} {cs key r₁ r₂ r₃ r₄ : Text} {w : Json} {seen : List (String × Json)}
    (hkey : readString ('"' :: cs) [] cs = .ok (key, r₁)) (hcolon : skipBlanks r₁ = ':' :: r₂)
    (hvalue : readValue n levels (skipBlanks r₂) = .ok (w, r₃)) (hcomma : skipBlanks r₃ = ',' :: r₄) :
    readFields (n + 1) levels seen ('"' :: cs)
      = readFields n levels (insertField (String.ofList key) w seen) (skipBlanks r₄) := by
  simp only [readFields, hkey, hcolon, hvalue, hcomma]

theorem readFields_close {n : Nat} {cs key r₁ r₂ r₃ : Text} {w : Json} {seen : List (String × Json)}
    (hkey : readString ('"' :: cs) [] cs = .ok (key, r₁)) (hcolon : skipBlanks r₁ = ':' :: r₂)
    (hvalue : readValue n levels (skipBlanks r₂) = .ok (w, r₃)) (hclose : skipBlanks r₃ = '}' :: rest) :
    readFields (n + 1) levels seen ('"' :: cs)
      = .ok (.obj (insertField (String.ofList key) w seen), rest) := by
  simp only [readFields, hkey, hcolon, hvalue, hclose]

/-! ## Readings that go too deep -/

theorem not_isNesting_of_readCodeEscape {f : Fault} (h : readCodeEscape t = .error f) :
    f.cause.isNesting = false := by
  unfold readCodeEscape at h
  dsimp only at h
  repeat' split at h
  all_goals cases h
  all_goals rfl

/-- A text breaks off for other reasons. -/
theorem not_isNesting_of_readString {start seen : Text} {f : Fault}
    (h : readString start seen t = .error f) : f.cause.isNesting = false := by
  fun_induction readString start seen t with
  | case1 => cases h; rfl
  | case2 => cases h
  | case3 seen cs g hescape hquote =>
    cases h
    unfold readEscape at hescape
    split at hescape
    · cases hescape; rfl
    · next c cs =>
      split at hescape
      · split at hescape
        · next g' hcode =>
          cases hescape
          exact not_isNesting_of_readCodeEscape hcode
        · cases hescape
      · split at hescape
        · cases hescape
        · cases hescape; rfl
  | case4 seen cs ch n hescape hquote ih => exact ih h
  | case5 => cases h; rfl
  | case6 seen c cs hquote hslash hcontrol ih => exact ih h

theorem not_isNesting_of_readNumber {f : Fault} (h : readNumber t = .error f) :
    f.cause.isNesting = false := by
  unfold readNumber at h
  dsimp only at h
  repeat' split at h
  all_goals cases h
  all_goals rfl

/-- A value goes too deep if no level is left for a list or an object, or if a part of it does. -/
theorem readValue_nesting {f : Fault} (h : readValue fuel levels t = .error f)
    (hf : f.cause.isNesting = true) :
    ∃ c cs, t = c :: cs ∧ (c = '{' ∨ c = '[') ∧
      (levels = 0 ∨ ∃ n m, fuel = n + 1 ∧ levels = m + 1 ∧
        (readFields n m [] (skipBlanks cs) = .error f ∨
          readItems n m [] (skipBlanks cs) = .error f)) := by
  cases fuel with
  | zero =>
    cases h
    cases hf
  | succ n =>
    cases t with
    | nil =>
      cases h
      cases hf
    | cons c cs =>
      rw [readValue.eq_def] at h
      dsimp only at h
      by_cases hquote : c = '"'
      · rw [if_pos hquote] at h
        split at h
        · next g hread =>
          cases h
          rw [not_isNesting_of_readString hread] at hf
          cases hf
        · cases h
      rw [if_neg hquote] at h
      by_cases hbrace : c = '{'
      · rw [if_pos hbrace] at h
        refine ⟨c, cs, rfl, Or.inl hbrace, ?_⟩
        cases levels with
        | zero => exact Or.inl rfl
        | succ m =>
          dsimp only at h
          split at h
          · cases h
          · exact Or.inr ⟨n, m, rfl, rfl, Or.inl h⟩
      rw [if_neg hbrace] at h
      by_cases hbracket : c = '['
      · rw [if_pos hbracket] at h
        refine ⟨c, cs, rfl, Or.inr hbracket, ?_⟩
        cases levels with
        | zero => exact Or.inl rfl
        | succ m =>
          dsimp only at h
          split at h
          · cases h
          · exact Or.inr ⟨n, m, rfl, rfl, Or.inr h⟩
      rw [if_neg hbracket] at h
      split at h
      · cases h
      · rw [not_isNesting_of_readNumber h] at hf
        cases hf

/-- A list goes too deep if one of its items does. -/
theorem readItems_nesting {f : Fault} {seen : List Json}
    (h : readItems fuel levels seen t = .error f) (hf : f.cause.isNesting = true) :
    ∃ n, fuel = n + 1 ∧ (readValue n levels t = .error f ∨
      ∃ w r r', readValue n levels t = .ok (w, r) ∧ skipBlanks r = ',' :: r' ∧
        readItems n levels (w :: seen) (skipBlanks r') = .error f) := by
  cases fuel with
  | zero =>
    cases h
    cases hf
  | succ n =>
    refine ⟨n, rfl, ?_⟩
    rw [readItems] at h
    split at h
    · next g hvalue =>
      simp only [Except.error.injEq] at h
      exact Or.inl (h ▸ hvalue)
    · next w r hvalue =>
      refine Or.inr ⟨w, r, ?_⟩
      split at h
      · cases h
      · next r' hcomma => exact ⟨r', hvalue, hcomma, h⟩
      · cases h
        cases hf

/-- An object goes too deep if the value of one of its members does. -/
theorem readFields_nesting {f : Fault} {seen : List (String × Json)}
    (h : readFields fuel levels seen t = .error f) (hf : f.cause.isNesting = true) :
    ∃ n cs key r₁ r₂, fuel = n + 1 ∧ t = '"' :: cs ∧ readString t [] cs = .ok (key, r₁) ∧
      skipBlanks r₁ = ':' :: r₂ ∧ (readValue n levels (skipBlanks r₂) = .error f ∨
        ∃ w r₃ r₄, readValue n levels (skipBlanks r₂) = .ok (w, r₃) ∧ skipBlanks r₃ = ',' :: r₄ ∧
          readFields n levels (insertField (String.ofList key) w seen) (skipBlanks r₄)
            = .error f) := by
  cases fuel with
  | zero =>
    cases h
    cases hf
  | succ n =>
    rw [readFields.eq_def] at h
    dsimp only at h
    split at h
    · next cs =>
      split at h
      · next g hkey =>
        cases h
        rw [not_isNesting_of_readString hkey] at hf
        cases hf
      · next key r₁ hkey =>
        split at h
        · next r₂ hcolon =>
          refine ⟨n, cs, key, r₁, r₂, rfl, rfl, hkey, hcolon, ?_⟩
          split at h
          · next g hvalue =>
            simp only [Except.error.injEq] at h
            exact Or.inl (h ▸ hvalue)
          · next w r₃ hvalue =>
            refine Or.inr ⟨w, r₃, ?_⟩
            split at h
            · cases h
            · next r₄ hcomma => exact ⟨r₄, hvalue, hcomma, h⟩
            · cases h
              cases hf
        · cases h
          cases hf
    · cases h
      cases hf

end PatchLint.Json
