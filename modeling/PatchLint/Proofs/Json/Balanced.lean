import Mathlib.Data.List.TakeWhile
import PatchLint.Proofs.Json.Steps

/-!
# What a JSON value takes

A JSON value takes a balanced text: a text in which every opening brace has its closing brace, where the
braces inside of strings do not count. Nothing more of the grammar is needed to find the end of an object
without reading it.

* `Quoted`, `Balanced` — what follows an opening quotation mark, and a text whose braces are balanced
* `Passes` — a balanced text has been taken from the front of another one
* `passes_of_read` — what the reader takes is balanced
* `passes_of_object` — an object is a balanced text between two braces
-/

namespace PatchLint.Json

/-! ## Balanced texts -/

/-- A string after its opening quotation mark. A character behind a backslash does not end it. -/
inductive Quoted : Text → Prop
  | close : Quoted ['"']
  | plain {c : Char} {s : Text} : c ≠ '"' → c ≠ '\\' → Quoted s → Quoted (c :: s)
  | escape {c : Char} {s : Text} : Quoted s → Quoted ('\\' :: c :: s)

/-- Whether a character is neither a brace nor a quotation mark. -/
def IsPlain (c : Char) : Prop := c ≠ '"' ∧ c ≠ '{' ∧ c ≠ '}'

instance (c : Char) : Decidable (IsPlain c) :=
  inferInstanceAs (Decidable (c ≠ '"' ∧ c ≠ '{' ∧ c ≠ '}'))

/-- A text whose braces are balanced, outside of its strings. -/
inductive Balanced : Text → Prop
  | nil : Balanced []
  | plain {c : Char} {u : Text} : IsPlain c → Balanced u → Balanced (c :: u)
  | string {s u : Text} : Quoted s → Balanced u → Balanced ('"' :: (s ++ u))
  | braces {u w : Text} : Balanced u → Balanced w → Balanced ('{' :: (u ++ '}' :: w))

theorem Quoted.append {s body : Text} (hs : ∀ c ∈ s, c ≠ '"' ∧ c ≠ '\\') (h : Quoted body) :
    Quoted (s ++ body) := by
  induction s with
  | nil => exact h
  | cons c s ih =>
    rw [List.forall_mem_cons] at hs
    exact .plain hs.1.1 hs.1.2 (ih hs.2)

theorem Balanced.append {u w : Text} (hu : Balanced u) (hw : Balanced w) : Balanced (u ++ w) := by
  induction hu with
  | nil => exact hw
  | plain hc _ ih => exact .plain hc ih
  | string hs _ ih =>
    rw [List.cons_append, List.append_assoc]
    exact .string hs ih
  | braces hinner _ _ ih =>
    rw [List.cons_append, List.append_assoc, List.cons_append]
    exact .braces hinner ih

theorem Balanced.of_plain {u : Text} (h : ∀ c ∈ u, IsPlain c) : Balanced u := by
  induction u with
  | nil => exact .nil
  | cons c u ih =>
    rw [List.forall_mem_cons] at h
    exact .plain h.1 (ih h.2)

/-- A balanced text stands at the front of `t`, and `rest` is what follows it. -/
def Passes (t rest : Text) : Prop := ∃ u, t = u ++ rest ∧ Balanced u

variable {t r rest : Text}

theorem Passes.refl (t : Text) : Passes t t := ⟨[], rfl, .nil⟩

theorem Passes.trans (h₁ : Passes t r) (h₂ : Passes r rest) : Passes t rest := by
  obtain ⟨u, rfl, hu⟩ := h₁
  obtain ⟨w, rfl, hw⟩ := h₂
  exact ⟨u ++ w, (List.append_assoc u w rest).symm, hu.append hw⟩

theorem Passes.plain {c : Char} (hc : IsPlain c) (h : Passes t rest) : Passes (c :: t) rest := by
  obtain ⟨u, rfl, hu⟩ := h
  exact ⟨c :: u, rfl, .plain hc hu⟩

/-- A run of plain characters is passed over, wherever it ends. -/
theorem Passes.dropWhile {p : Char → Bool} (hp : ∀ c, p c = true → IsPlain c) (t : Text) :
    Passes t (t.dropWhile p) :=
  ⟨t.takeWhile p, (List.takeWhile_append_dropWhile (p := p) (l := t)).symm,
    .of_plain fun c hc => hp c (List.mem_takeWhile_imp hc)⟩

theorem Passes.braces (h : Passes t ('}' :: rest)) : Passes ('{' :: t) rest := by
  obtain ⟨u, rfl, hu⟩ := h
  refine ⟨'{' :: (u ++ ['}']), ?_, .braces hu .nil⟩
  rw [List.cons_append, List.append_assoc]
  rfl

/-! ## Blanks, words and numbers -/

theorem Passes.blanks (t : Text) : Passes t (skipBlanks t) := by
  refine Passes.dropWhile (fun c hc => ?_) t
  simp only [isBlank, Bool.or_eq_true, decide_eq_true_eq] at hc
  rcases hc with ((hc | hc) | hc) | hc <;> (subst hc; decide)

theorem isPlain_of_mem_words : ∀ p ∈ words, ∀ c ∈ p.1, IsPlain c := by
  have hall : (words.all fun p => p.1.all (IsPlain ·)) = true := by decide
  intro p hp c hc
  exact of_decide_eq_true (List.all_eq_true.mp (List.all_eq_true.mp hall p hp) c hc)

/-- A word is one of the known words. -/
theorem exists_word_of_readWord? {v : Json} (h : readWord? t = some (v, rest)) :
    ∃ w, (w, v) ∈ words ∧ t = w ++ rest := by
  unfold readWord? at h
  obtain ⟨⟨w, v'⟩, hfind, heq⟩ := Option.map_eq_some_iff.mp h
  cases heq
  have hprefix := List.find?_some hfind
  refine ⟨w, List.mem_of_find?_eq_some hfind, ?_⟩
  exact (List.prefix_iff_eq_append.mp (List.isPrefixOf_iff_prefix.mp hprefix)).symm

theorem isPlain_of_isDigit (c : Char) (h : isDigit c = true) : IsPlain c := by
  refine ⟨?_, ?_, ?_⟩
  all_goals
    rintro rfl
    revert h
    decide

theorem passes_of_readWhole? {whole : Text} (h : readWhole? t = some (whole, rest)) :
    Passes t rest := by
  unfold readWhole? at h
  split at h
  · cases h
  · next c cs =>
    split at h
    · next hzero =>
      cases h
      exact .plain (hzero ▸ by decide) (.refl _)
    · split at h
      · cases h
        exact .dropWhile isPlain_of_isDigit (c :: cs)
      · cases h

theorem passes_readFraction (t : Text) : Passes t (readFraction t).2 := by
  unfold readFraction
  split
  · next cs =>
    split
    · exact .refl _
    · exact .plain (by decide) (.dropWhile isPlain_of_isDigit cs)
  · exact .refl _

theorem passes_readSign (t : Text) : Passes t (readSign t).2 := by
  unfold readSign
  split
  · exact .plain (by decide) (.refl _)
  · exact .plain (by decide) (.refl _)
  · exact .refl _

theorem passes_readMinus (t : Text) : Passes t (readMinus t).2 := by
  unfold readMinus
  split
  · exact .plain (by decide) (.refl _)
  · exact .refl _

theorem passes_of_readExponent? {n : Int} (h : readExponent? t = some (n, rest)) :
    Passes t rest := by
  unfold readExponent? at h
  split at h
  · cases h
  · next c cs =>
    split at h
    · next hmark =>
      have hc : IsPlain c := by rcases hmark with rfl | rfl <;> decide
      dsimp only at h
      split at h
      · cases h
      · cases h
        exact .plain hc ((passes_readSign cs).trans (.dropWhile isPlain_of_isDigit _))
    · cases h

theorem passes_of_readNumber {v : Json} (h : readNumber t = .ok (v, rest)) : Passes t rest := by
  have hsign := passes_readMinus t
  unfold readNumber at h
  dsimp only at h
  split at h
  · cases h
  next whole body hwhole =>
  have hdigits := passes_of_readWhole? hwhole
  have hfraction := passes_readFraction body
  have hfront := (hsign.trans hdigits).trans hfraction
  split at h
  · split at h
    · split at h
      · cases h
      · cases h
        exact hfront
    · cases h
      exact hfront
  · next e after hexponent =>
    cases h
    exact hfront.trans (passes_of_readExponent? hexponent)

/-! ## Strings -/

theorem isPlain_of_hexValue? {c : Char} {n : Nat} (h : Text.hexValue? c = some n) :
    c ≠ '"' ∧ c ≠ '\\' := by
  refine ⟨?_, ?_⟩
  all_goals
    rintro rfl
    simp [Text.hexValue?] at h

/-- A code is four characters long, and none of them ends a string or escapes another one. -/
theorem exists_code_of_readCode? {n : Nat} (h : readCode? t = some n) :
    ∃ code rest, t = code ++ rest ∧ code.length = 4 ∧ ∀ c ∈ code, c ≠ '"' ∧ c ≠ '\\' := by
  unfold readCode? at h
  split at h
  · next a b c d rest =>
    simp only [Option.bind_eq_bind, Option.bind_eq_some_iff] at h
    obtain ⟨_, ha, _, hb, _, hc, _, hd, -⟩ := h
    refine ⟨[a, b, c, d], rest, rfl, rfl, ?_⟩
    simp only [List.forall_mem_cons]
    exact ⟨isPlain_of_hexValue? ha, isPlain_of_hexValue? hb, isPlain_of_hexValue? hc,
      isPlain_of_hexValue? hd, by simp⟩
  · cases h

theorem Quoted.take_of_readCode? {body : Text} {n : Nat} (h : readCode? t = some n)
    (hbody : Quoted body) : Quoted (t.take 4 ++ body) := by
  obtain ⟨code, rest, rfl, hlength, hcode⟩ := exists_code_of_readCode? h
  rw [List.take_left' hlength]
  exact hbody.append hcode

/-- A pair of codes is passed over as one. -/
theorem Quoted.take_of_readCodeEscape {body : Text} {ch : Char} {n : Nat}
    (h : readCodeEscape t = .ok (ch, n)) (hbody : Quoted body) : Quoted (t.take n ++ body) := by
  obtain ⟨-, high, hhigh, hcases⟩ := readCodeEscape_eq_ok_iff.mp h
  rcases hcases with ⟨-, -, rfl⟩ | ⟨hpartner, low, hlow, ⟨-, -, rfl⟩ | ⟨-, -, rfl⟩⟩
  · exact hbody.take_of_readCode? hhigh
  · exact hbody.take_of_readCode? hhigh
  · obtain ⟨-, second, hsecond, -⟩ := hasPartner_iff.mp hpartner
    have hdrop : t.drop 6 = second := by
      rw [show 6 = 4 + 2 from rfl, ← List.drop_drop, hsecond]
      rfl
    have htake : t.take 10 = t.take 4 ++ '\\' :: 'u' :: (t.drop 6).take 4 := by
      rw [hdrop, show 10 = 4 + 6 from rfl, List.take_add, hsecond]
      rfl
    rw [htake, List.append_assoc]
    exact (Quoted.escape (hbody.take_of_readCode? hlow)).take_of_readCode? hhigh

/-- An escape does not end a string. -/
theorem Quoted.take_of_readEscape {start body : Text} {ch : Char} {n : Nat}
    (h : readEscape start t = .ok (ch, n)) (hbody : Quoted body) :
    Quoted ('\\' :: (t.take n ++ body)) := by
  obtain ⟨c, cs, rfl, ⟨-, k, rfl, hcode⟩ | ⟨-, rfl, -⟩⟩ := readEscape_cases h
  · exact .escape (hbody.take_of_readCodeEscape hcode)
  · exact .escape hbody

theorem exists_quoted_of_readString {start seen s : Text}
    (h : readString start seen t = .ok (s, rest)) : ∃ body, t = body ++ rest ∧ Quoted body := by
  fun_induction readString start seen t with
  | case1 => cases h
  | case2 =>
    cases h
    exact ⟨['"'], rfl, .close⟩
  | case3 => cases h
  | case4 seen cs ch n hescape hquote ih =>
    obtain ⟨body, hsplit, hbody⟩ := ih h
    refine ⟨'\\' :: (cs.take n ++ body), ?_, hbody.take_of_readEscape hescape⟩
    rw [List.cons_append, List.append_assoc, ← hsplit, List.take_append_drop]
  | case5 => cases h
  | case6 seen c cs hquote hslash hcontrol ih =>
    obtain ⟨body, rfl, hbody⟩ := ih h
    exact ⟨c :: body, rfl, .plain hquote hslash hbody⟩

theorem passes_of_readString {start seen s : Text} (h : readString start seen t = .ok (s, rest)) :
    Passes ('"' :: t) rest := by
  obtain ⟨body, rfl, hbody⟩ := exists_quoted_of_readString h
  refine ⟨'"' :: (body ++ []), ?_, .string hbody .nil⟩
  rw [List.append_nil, List.cons_append]

/-! ## Values -/

/-- A value takes a balanced text, and so do the items of a list and the members of an object up to the
bracket or brace that ends them. -/
theorem passes_of_read (fuel : Nat) :
    (∀ {levels : Nat} {t rest : Text} {v : Json}, readValue fuel levels t = .ok (v, rest) →
      Passes t rest) ∧
    (∀ {levels : Nat} {seen : List Json} {t rest : Text} {v : Json},
      readItems fuel levels seen t = .ok (v, rest) → Passes t (']' :: rest)) ∧
    (∀ {levels : Nat} {seen : List (String × Json)} {t rest : Text} {v : Json},
      readFields fuel levels seen t = .ok (v, rest) → Passes t ('}' :: rest)) := by
  -- by the fuel, which every call of a reader lowers
  induction fuel with
  | zero =>
    refine ⟨fun h => ?_, fun h => ?_, fun h => ?_⟩
    · simp [readValue] at h
    · simp [readItems] at h
    · simp [readFields] at h
  | succ fuel ih =>
    obtain ⟨ihValue, ihItems, ihFields⟩ := ih
    refine ⟨fun {levels t rest v} h => ?value, fun {levels seen t rest v} h => ?items,
      fun {levels seen t rest v} h => ?fields⟩
    case value =>
      obtain ⟨n, c, cs, hfuel, rfl, hcases⟩ := readValue_cases h
      cases hfuel
      rcases hcases with ⟨rfl, s, hs, -⟩ | ⟨rfl, m, -, hobject⟩ | ⟨rfl, m, -, hlist⟩ | ⟨-, -, -, hatom⟩
      · exact passes_of_readString hs
      · have hmembers : Passes (skipBlanks cs) ('}' :: rest) := by
          rcases hobject with ⟨hempty, -⟩ | hmembers
          · exact hempty ▸ .refl _
          · exact ihFields hmembers
        exact ((Passes.blanks cs).trans hmembers).braces
      · have hitems : Passes (skipBlanks cs) (']' :: rest) := by
          rcases hlist with ⟨hempty, -⟩ | hitems
          · exact hempty ▸ .refl _
          · exact ihItems hitems
        have hclose : Passes (']' :: rest) rest := .plain (by decide) (.refl rest)
        exact .plain (by decide) (((Passes.blanks cs).trans hitems).trans hclose)
      · rcases hatom with hword | ⟨-, hnumber⟩
        · obtain ⟨w, hw, heq⟩ := exists_word_of_readWord? hword
          exact ⟨w, heq, .of_plain (isPlain_of_mem_words _ hw)⟩
        · exact passes_of_readNumber hnumber
    case items =>
      obtain ⟨n, w, r, hfuel, hvalue, hcases⟩ := readItems_cases h
      cases hfuel
      have hitem := (ihValue hvalue).trans (.blanks r)
      rcases hcases with ⟨hclose, -⟩ | ⟨r', hcomma, hitems⟩
      · exact hclose ▸ hitem
      · rw [hcomma] at hitem
        exact hitem.trans (.plain (by decide) ((Passes.blanks r').trans (ihItems hitems)))
    case fields =>
      obtain ⟨n, cs, key, r₁, r₂, w, r₃, hfuel, rfl, hkey, hcolon, hvalue, hcases⟩ :=
        readFields_cases h
      cases hfuel
      have hname := (passes_of_readString hkey).trans (.blanks r₁)
      rw [hcolon] at hname
      have hmember := hname.trans (.plain (by decide)
        ((Passes.blanks r₂).trans ((ihValue hvalue).trans (.blanks r₃))))
      rcases hcases with ⟨hclose, -⟩ | ⟨r₄, hcomma, hmembers⟩
      · exact hclose ▸ hmember
      · rw [hcomma] at hmember
        exact hmember.trans (.plain (by decide) ((Passes.blanks r₄).trans (ihFields hmembers)))

/-- An object is a balanced text between two braces. -/
theorem passes_of_object {fuel levels : Nat} {v : Json}
    (h : readValue fuel levels ('{' :: t) = .ok (v, rest)) : Passes t ('}' :: rest) := by
  obtain ⟨n, c, cs, rfl, heq, hcases⟩ := readValue_cases h
  cases heq
  rcases hcases with ⟨hc, -⟩ | ⟨-, m, -, ⟨hempty, -⟩ | hmembers⟩ | ⟨hc, -⟩ | ⟨-, hc, -⟩
  · cases hc
  · exact hempty ▸ .blanks t
  · exact (Passes.blanks t).trans ((passes_of_read n).2.2 hmembers)
  · cases hc
  · exact absurd rfl hc

end PatchLint.Json
