import PatchLint.Proofs.Json.Balanced

/-!
# Strings, words and numbers in a longer text

A token at the front of a text is read in the same way when more text follows. A number is the only token that
may go on in the text that follows: it has to be ended by a character that belongs to no number
(`EndsNumber`), as the numbers inside of a list or an object are.

* `readString_append` — a string
* `readNumber_append`, `readWord?_append` — a number that is ended, and a word
* `readWord?_eq_none_of_readNumber` — no number is taken for a word
-/

namespace PatchLint.Json

variable {t r rest : Text}

/-! ## Blanks -/

theorem skipBlanks_append {c : Char} (h : skipBlanks t = c :: r) (s : Text) :
    skipBlanks (t ++ s) = c :: r ++ s := by
  unfold skipBlanks at h ⊢
  rw [List.dropWhile_append, h, List.isEmpty_cons, if_neg Bool.false_ne_true]

/-! ## Strings -/

theorem readCode?_append {n : Nat} (h : readCode? t = some n) (s : Text) :
    readCode? (t ++ s) = some n := by
  unfold readCode? at h
  split at h
  · exact h
  · cases h

theorem length_of_readCode? {n : Nat} (h : readCode? t = some n) : 4 ≤ t.length := by
  obtain ⟨code, rest, rfl, hlength, -⟩ := exists_code_of_readCode? h
  rw [List.length_append, hlength]
  exact Nat.le_add_right 4 _

/-- An escape stands within its text. -/
theorem readCodeEscape_le {ch : Char} {n : Nat} (h : readCodeEscape t = .ok (ch, n)) :
    n ≤ t.length := by
  obtain ⟨hlength, high, -, hcases⟩ := readCodeEscape_eq_ok_iff.mp h
  rcases hcases with ⟨-, -, rfl⟩ | ⟨-, low, hlow, ⟨-, -, rfl⟩ | ⟨-, -, rfl⟩⟩
  · omega
  · omega
  · have hsecond := length_of_readCode? hlow
    rw [List.length_drop] at hsecond
    omega

theorem readEscape_le {start : Text} {ch : Char} {n : Nat} (h : readEscape start t = .ok (ch, n)) :
    n ≤ t.length := by
  obtain ⟨c, cs, rfl, ⟨-, k, rfl, hcode⟩ | ⟨-, rfl, -⟩⟩ := readEscape_cases h
  · exact Nat.succ_le_succ (readCodeEscape_le hcode)
  · exact Nat.succ_le_succ (Nat.zero_le _)

/-- A string that goes on with an escape is read over the escape. -/
theorem readString_escape {start seen : Text} {p : Text × Text}
    (h : readString start seen ('\\' :: t) = .ok p) :
    ∃ ch n, readEscape start t = .ok (ch, n) ∧ readString start (ch :: seen) (t.drop n) = .ok p := by
  rw [readString, if_neg (by decide), if_pos rfl] at h
  split at h
  · cases h
  · next ch n hescape => exact ⟨ch, n, hescape, h⟩

/-- A first half whose second half is not looked at has none in a longer text either: a string that breaks
off within the second escape cannot be read. -/
theorem hasPartner_append {start seen : Text} {high : Nat} {p : Text × Text} (hlength : 4 ≤ t.length)
    (h : hasPartner high t = false) (hread : readString start seen (t.drop 4) = .ok p) (s : Text) :
    hasPartner high (t ++ s) = false := by
  rw [Bool.eq_false_iff]
  intro hpartner
  obtain ⟨hhigh, second, hsecond, hlong⟩ := hasPartner_iff.mp hpartner
  rw [List.drop_append_of_le_length hlength] at hsecond
  -- the second escape would start in `t` and end behind it: then the string itself breaks off in it
  match hafter : t.drop 4, hsecond, hread with
  | [], _, hread => simp [readString] at hread
  | [c], hsecond, hread =>
    cases hsecond
    obtain ⟨ch, n, hescape, -⟩ := readString_escape hread
    cases hescape
  | c :: d :: digits, hsecond, hread =>
    cases hsecond
    obtain ⟨ch, n, hescape, -⟩ := readString_escape hread
    obtain ⟨_, _, heq, ⟨-, k, -, hcode⟩ | ⟨hne, -⟩⟩ := readEscape_cases hescape
    · cases heq
      have hfound := hasPartner_iff.mpr ⟨hhigh, digits, hafter, (readCodeEscape_eq_ok_iff.mp hcode).1⟩
      rw [h] at hfound
      cases hfound
    · cases heq
      exact hne rfl

theorem readCodeEscape_append {start seen : Text} {ch : Char} {n : Nat} {p : Text × Text}
    (h : readCodeEscape t = .ok (ch, n)) (hread : readString start seen (t.drop n) = .ok p)
    (s : Text) : readCodeEscape (t ++ s) = .ok (ch, n) := by
  obtain ⟨hlength, high, hhigh, hcases⟩ := readCodeEscape_eq_ok_iff.mp h
  refine readCodeEscape_eq_ok_iff.mpr ⟨?_, high, readCode?_append hhigh s, ?_⟩
  · rw [List.length_append]
    omega
  rcases hcases with ⟨hpartner, rfl, rfl⟩ | ⟨hpartner, low, hlow, hcases⟩
  · exact Or.inl ⟨hasPartner_append (by omega) hpartner hread s, rfl, rfl⟩
  · obtain ⟨hhalf, second, hsecond, hlong⟩ := hasPartner_iff.mp hpartner
    have hdrop : (t ++ s).drop 6 = t.drop 6 ++ s := by
      refine List.drop_append_of_le_length ?_
      have := congrArg List.length hsecond
      simp only [List.length_drop, List.length_cons] at this
      omega
    refine Or.inr ⟨hasPartner_iff.mpr ⟨hhalf, second ++ s, ?_, ?_⟩, low, ?_, hcases⟩
    · rw [List.drop_append_of_le_length (by omega), hsecond]
      rfl
    · rw [List.length_append]
      omega
    · rw [hdrop]
      exact readCode?_append hlow s

theorem readEscape_append {start start' seen : Text} {ch : Char} {n : Nat} {p : Text × Text}
    (h : readEscape start t = .ok (ch, n)) (hread : readString start seen (t.drop n) = .ok p)
    (s : Text) : readEscape start' (t ++ s) = .ok (ch, n) := by
  obtain ⟨c, cs, rfl, ⟨rfl, k, rfl, hcode⟩ | ⟨hc, rfl, hsimple⟩⟩ := readEscape_cases h
  · rw [List.cons_append, readEscape, if_pos rfl, readCodeEscape_append hcode hread s]
  · rw [List.cons_append, readEscape, if_neg hc, hsimple]

/-- A string is read in the same way in a longer text. Where its fault would be reported does not matter. -/
theorem readString_append {start seen v : Text} (h : readString start seen t = .ok (v, rest))
    (start' s : Text) : readString start' seen (t ++ s) = .ok (v, rest ++ s) := by
  fun_induction readString start seen t with
  | case1 => cases h
  | case2 seen cs =>
    cases h
    rw [List.cons_append, readString, if_pos rfl]
  | case3 => cases h
  | case4 seen cs ch n hescape hquote ih =>
    rw [List.cons_append, readString, if_neg hquote, if_pos rfl, readEscape_append hescape h s]
    dsimp only
    rw [List.drop_append_of_le_length (readEscape_le hescape)]
    exact ih h
  | case5 => cases h
  | case6 seen c cs hquote hslash hcontrol ih =>
    rw [List.cons_append, readString, if_neg hquote, if_neg hslash, if_neg hcontrol]
    exact ih h

/-! ## Words and numbers -/

theorem readWord?_append {v : Json} (h : readWord? t = some (v, rest)) (s : Text) :
    readWord? (t ++ s) = some (v, rest ++ s) := by
  obtain ⟨w, hw, rfl⟩ := exists_word_of_readWord? h
  rw [List.append_assoc]
  generalize rest ++ s = r
  simp only [words, List.mem_cons, Prod.mk.injEq, List.not_mem_nil, or_false] at hw
  rcases hw with ⟨rfl, rfl⟩ | ⟨rfl, rfl⟩ | ⟨rfl, rfl⟩ | ⟨rfl, rfl⟩ | ⟨rfl, rfl⟩ | ⟨rfl, rfl⟩ <;> rfl

/-- A text starts with a character that belongs to no number. -/
def EndsNumber : Text → Prop
  | [] => False
  | c :: _ => isDigit c = false ∧ c ≠ '.' ∧ c ≠ 'e' ∧ c ≠ 'E'

theorem EndsNumber.ne_nil (h : EndsNumber t) : t ≠ [] := by
  rintro rfl
  exact h

/-- A run of characters that is ended within its text is the same run in a longer one. -/
theorem takeWhile_append_of_dropWhile {p : Char → Bool} (h : t.dropWhile p ≠ []) (s : Text) :
    (t ++ s).takeWhile p = t.takeWhile p ∧ (t ++ s).dropWhile p = t.dropWhile p ++ s := by
  induction t with
  | nil => exact absurd rfl h
  | cons c t ih =>
    rw [List.cons_append]
    by_cases hc : p c = true
    · rw [List.dropWhile_cons_of_pos hc] at h ⊢
      rw [List.takeWhile_cons_of_pos hc, List.takeWhile_cons_of_pos hc, List.dropWhile_cons_of_pos hc,
        (ih h).1]
      exact ⟨rfl, (ih h).2⟩
    · rw [List.takeWhile_cons_of_neg hc, List.takeWhile_cons_of_neg hc, List.dropWhile_cons_of_neg hc,
        List.dropWhile_cons_of_neg hc]
      exact ⟨rfl, rfl⟩

theorem readMinus_append (h : t ≠ []) (s : Text) :
    readMinus (t ++ s) = ((readMinus t).1, (readMinus t).2 ++ s) := by
  obtain ⟨c, cs, rfl⟩ := List.exists_cons_of_ne_nil h
  by_cases hc : c = '-'
  · subst hc
    rfl
  · simp [readMinus, hc]

theorem readSign_append (h : t ≠ []) (s : Text) :
    readSign (t ++ s) = ((readSign t).1, (readSign t).2 ++ s) := by
  obtain ⟨c, cs, rfl⟩ := List.exists_cons_of_ne_nil h
  by_cases hminus : c = '-'
  · subst hminus
    rfl
  by_cases hplus : c = '+'
  · subst hplus
    rfl
  simp [readSign, hminus, hplus]

theorem readWhole?_append {whole : Text} (h : readWhole? t = some (whole, rest)) (hrest : rest ≠ [])
    (s : Text) : readWhole? (t ++ s) = some (whole, rest ++ s) := by
  unfold readWhole? at h
  split at h
  · cases h
  next c cs =>
  show (if c = '0' then _ else _) = _
  split at h
  · next hzero =>
    cases h
    exact if_pos hzero
  next hzero =>
  split at h
  · next hdigit =>
    cases h
    rw [if_neg hzero, if_pos hdigit, (takeWhile_append_of_dropWhile hrest s).1,
      (takeWhile_append_of_dropWhile hrest s).2]
  · cases h

theorem readFraction_append (hrest : (readFraction t).2 ≠ [])
    (hpoint : ∀ cs, (readFraction t).2 ≠ '.' :: cs) (s : Text) :
    readFraction (t ++ s) = ((readFraction t).1, (readFraction t).2 ++ s) := by
  cases t with
  | nil => exact absurd rfl hrest
  | cons c cs =>
    by_cases hc : c = '.'
    · subst hc
      simp only [readFraction] at hrest hpoint
      split at hrest
      · next hnone =>
        rw [if_pos hnone] at hpoint
        exact absurd rfl (hpoint cs)
      · next hsome =>
        simp only [List.cons_append, readFraction]
        rw [(takeWhile_append_of_dropWhile hrest s).1, (takeWhile_append_of_dropWhile hrest s).2,
          if_neg hsome, if_neg hsome]
    · simp [readFraction, hc]

theorem readExponent?_append {n : Int} (h : readExponent? t = some (n, rest)) (hrest : rest ≠ [])
    (s : Text) : readExponent? (t ++ s) = some (n, rest ++ s) := by
  unfold readExponent? at h
  split at h
  · cases h
  next c cs =>
  split at h
  · next hmark =>
    dsimp only at h
    split at h
    · cases h
    next hsome =>
    have hcs : cs ≠ [] := by
      rintro rfl
      exact hsome rfl
    simp only [Option.some.injEq, Prod.mk.injEq] at h
    obtain ⟨hn, rfl⟩ := h
    simp only [List.cons_append, readExponent?, if_pos hmark, readSign_append hcs,
      (takeWhile_append_of_dropWhile hrest s).1, (takeWhile_append_of_dropWhile hrest s).2,
      if_neg hsome, hn]
  · cases h

theorem readExponent?_eq_none (hend : EndsNumber t) : readExponent? t = none := by
  obtain ⟨c, cs, rfl⟩ := List.exists_cons_of_ne_nil hend.ne_nil
  obtain ⟨-, -, he, hE⟩ := hend
  have hmark : ¬(c = 'e' ∨ c = 'E') := by
    rintro (h | h)
    · exact he h
    · exact hE h
  exact if_neg hmark

theorem EndsNumber.append (h : EndsNumber t) (s : Text) : EndsNumber (t ++ s) := by
  obtain ⟨c, cs, rfl⟩ := List.exists_cons_of_ne_nil h.ne_nil
  exact h

/-- Neither the end of a text nor a point is where an exponent or the end of a number stands. -/
theorem front_of_readExponent? {n : Int} (h : readExponent? t = some (n, rest)) :
    t ≠ [] ∧ ∀ cs, t ≠ '.' :: cs := by
  constructor
  · rintro rfl
    cases h
  · rintro cs rfl
    simp [readExponent?] at h

theorem EndsNumber.front (h : EndsNumber t) : t ≠ [] ∧ ∀ cs, t ≠ '.' :: cs := by
  refine ⟨h.ne_nil, ?_⟩
  rintro cs rfl
  exact h.2.1 rfl

/-- A number that is ended is read in the same way in a longer text. -/
theorem readNumber_append {v : Json} (h : readNumber t = .ok (v, rest)) (hend : EndsNumber rest)
    (s : Text) : readNumber (t ++ s) = .ok (v, rest ++ s) := by
  have ht : t ≠ [] := by
    rintro rfl
    cases h
  unfold readNumber at h ⊢
  rw [readMinus_append ht]
  dsimp only at h ⊢
  split at h
  · cases h
  next whole body hwhole =>
  -- whatever follows the fraction, it shows that the digits and the fraction are ended
  have hextend (hfront : (readFraction body).2 ≠ [] ∧ ∀ cs, (readFraction body).2 ≠ '.' :: cs) :
      readWhole? ((readMinus t).2 ++ s) = some (whole, body ++ s) ∧
        readFraction (body ++ s) = ((readFraction body).1, (readFraction body).2 ++ s) := by
    have hbody : body ≠ [] := by
      rintro rfl
      exact hfront.1 rfl
    exact ⟨readWhole?_append hwhole hbody s, readFraction_append hfront.1 hfront.2 s⟩
  split at h
  · next hexponent =>
    have hrest : (readFraction body).2 = rest := by
      split at h
      · split at h
        · cases h
        · cases h
          rfl
      · cases h
        rfl
    rw [hrest] at hextend h
    rw [(hextend hend.front).1]
    dsimp only
    rw [(hextend hend.front).2]
    dsimp only
    rw [readExponent?_eq_none (hend.append s)]
    dsimp only
    split at h
    · next hinteger =>
      rw [if_pos hinteger]
      split at h
      · cases h
      · next hshort =>
        rw [if_neg hshort]
        cases h
        rfl
    · next hinteger =>
      rw [if_neg hinteger]
      cases h
      rfl
  · next e after hexponent =>
    have hfront := front_of_readExponent? hexponent
    simp only [Except.ok.injEq, Prod.mk.injEq] at h
    obtain ⟨hv, rfl⟩ := h
    rw [(hextend hfront).1]
    dsimp only
    rw [(hextend hfront).2]
    dsimp only
    rw [readExponent?_append hexponent hend.ne_nil s, ← hv]

/-- Behind its sign a number starts with a digit. -/
theorem exists_digit_of_readNumber {p : Json × Text} (h : readNumber t = .ok p) :
    ∃ c cs, (readMinus t).2 = c :: cs ∧ isDigit c = true := by
  unfold readNumber at h
  dsimp only at h
  split at h
  · cases h
  next hwhole =>
  unfold readWhole? at hwhole
  split at hwhole
  · cases hwhole
  next c cs hbody =>
  refine ⟨c, cs, hbody, ?_⟩
  split at hwhole
  · next hzero => exact hzero ▸ by decide
  split at hwhole
  · next hdigit => exact hdigit
  · cases hwhole

/-- Behind its sign a word does not start with a digit. -/
theorem exists_letter_of_mem_words :
    ∀ p ∈ words, ∃ c cs, (readMinus p.1).2 = c :: cs ∧ isDigit c = false := by
  simp only [words, List.forall_mem_cons]
  exact ⟨⟨_, _, rfl, rfl⟩, ⟨_, _, rfl, rfl⟩, ⟨_, _, rfl, rfl⟩, ⟨_, _, rfl, rfl⟩, ⟨_, _, rfl, rfl⟩,
    ⟨_, _, rfl, rfl⟩, by simp⟩

/-- A text that starts with a digit, or with a minus sign and a digit, does not start with a word. -/
theorem readWord?_eq_none_of_digit {c : Char} {cs : Text} (ht : (readMinus t).2 = c :: cs)
    (hc : isDigit c = true) : readWord? t = none := by
  match hword : readWord? t with
  | none => rfl
  | some (v, r) =>
    obtain ⟨w, hmem, rfl⟩ := exists_word_of_readWord? hword
    obtain ⟨d, ds, hletters, hletter⟩ := exists_letter_of_mem_words _ hmem
    have hw : w ≠ [] := by
      rintro rfl
      cases hletters
    rw [readMinus_append hw, hletters] at ht
    cases ht
    rw [hletter] at hc
    cases hc

/-- A number is no word, whatever follows it. -/
theorem readWord?_eq_none_of_readNumber {p : Json × Text} (h : readNumber t = .ok p) (s : Text) :
    readWord? (t ++ s) = none := by
  have ht : t ≠ [] := by
    rintro rfl
    cases h
  obtain ⟨c, cs, hnumber, hdigit⟩ := exists_digit_of_readNumber h
  have hfront : (readMinus (t ++ s)).2 = c :: (cs ++ s) := by
    rw [readMinus_append ht, hnumber]
    rfl
  exact readWord?_eq_none_of_digit hfront hdigit

end PatchLint.Json
