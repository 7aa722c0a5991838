import PatchLint.Proofs.Json.Tokens

/-!
# Values in a longer text

A value at the front of a text is read in the same way when more text follows, with as much fuel and as many
levels or more. Only a number may go on in the text that follows; inside of a list or an object it is ended by
what follows it there (`endsNumber_of_skipBlanks`).

* `read_append` — a value, the items of a list, the members of an object
* `parseWithin_around_obj`, `parseWithin_around_nesting` — an object with text around it
-/

namespace PatchLint.Json

variable {t r rest : Text}

/-! ## Values -/

/-- The tokens that follow the value of an item or a member end a number. -/
theorem endsNumber_of_skipBlanks {c : Char} (h : skipBlanks t = c :: r)
    (hc : c = ',' ∨ c = ']' ∨ c = '}') : EndsNumber t := by
  cases t with
  | nil => cases h
  | cons d ds =>
    unfold skipBlanks at h
    by_cases hd : isBlank d = true
    · show isDigit d = false ∧ d ≠ '.' ∧ d ≠ 'e' ∧ d ≠ 'E'
      simp only [isBlank, Bool.or_eq_true, decide_eq_true_eq] at hd
      rcases hd with ((rfl | rfl) | rfl) | rfl <;> decide
    · rw [List.dropWhile_cons_of_neg hd] at h
      cases h
      show isDigit c = false ∧ c ≠ '.' ∧ c ≠ 'e' ∧ c ≠ 'E'
      rcases hc with rfl | rfl | rfl <;> decide

/-- No value starts with the bracket that ends a list. -/
theorem front_of_readValue {fuel levels : Nat} {v : Json}
    (h : readValue fuel levels t = .ok (v, rest)) : ∃ c cs, t = c :: cs ∧ c ≠ ']' := by
  obtain ⟨n, c, cs, -, rfl, hcases⟩ := readValue_cases h
  refine ⟨c, cs, rfl, ?_⟩
  rintro rfl
  rcases hcases with ⟨hc, -⟩ | ⟨hc, -⟩ | ⟨hc, -⟩ | ⟨-, -, -, hword | ⟨-, hnumber⟩⟩
  · cases hc
  · cases hc
  · cases hc
  · cases hword
  · cases hnumber

theorem front_of_readItems {fuel levels : Nat} {seen : List Json} {v : Json}
    (h : readItems fuel levels seen t = .ok (v, rest)) : ∃ c cs, t = c :: cs ∧ c ≠ ']' := by
  obtain ⟨n, w, r, -, hvalue, -⟩ := readItems_cases h
  exact front_of_readValue hvalue

theorem exists_succ_of_lt {m n : Nat} (h : m < n) : ∃ k, n = k + 1 ∧ m ≤ k :=
  ⟨n - 1, by omega, by omega⟩

/-- What is read at the front of a text is read in the same way in a longer text, with as much fuel and as
many levels or more. -/
theorem read_append (fuel : Nat) :
    (∀ {levels fuel' levels' : Nat} {t rest : Text} {v : Json}, fuel ≤ fuel' → levels ≤ levels' →
      readValue fuel levels t = .ok (v, rest) → t.head? = some '{' ∨ EndsNumber rest → ∀ s : Text,
        readValue fuel' levels' (t ++ s) = .ok (v, rest ++ s)) ∧
    (∀ {levels fuel' levels' : Nat} {seen : List Json} {t rest : Text} {v : Json},
      fuel ≤ fuel' → levels ≤ levels' → readItems fuel levels seen t = .ok (v, rest) → ∀ s : Text,
        readItems fuel' levels' seen (t ++ s) = .ok (v, rest ++ s)) ∧
    (∀ {levels fuel' levels' : Nat} {seen : List (String × Json)} {t rest : Text} {v : Json},
      fuel ≤ fuel' → levels ≤ levels' → readFields fuel levels seen t = .ok (v, rest) → ∀ s : Text,
        readFields fuel' levels' seen (t ++ s) = .ok (v, rest ++ s)) := by
  -- the three readers call each other with less fuel, so they are taken together; the numbers among the items
  -- and members are ended by the tokens behind them, hence no condition there
  induction fuel with
  | zero =>
    refine ⟨fun _ _ h => ?_, fun _ _ h => ?_, fun _ _ h => ?_⟩
    · simp [readValue] at h
    · simp [readItems] at h
    · simp [readFields] at h
  | succ fuel ih =>
    obtain ⟨ihValue, ihItems, ihFields⟩ := ih
    refine ⟨fun {levels fuel' levels' t rest v} hlt hlevels h hend s => ?value,
      fun {levels fuel' levels' seen t rest v} hlt hlevels h s => ?items,
      fun {levels fuel' levels' seen t rest v} hlt hlevels h s => ?fields⟩
    all_goals
      obtain ⟨k, rfl, hfuel⟩ := exists_succ_of_lt hlt
    case value =>
      obtain ⟨n, c, cs, hn, rfl, hcases⟩ := readValue_cases h
      cases hn
      rcases hcases with ⟨rfl, str, hs, rfl⟩ | ⟨rfl, m, rfl, hobject⟩ | ⟨rfl, m, rfl, hlist⟩ |
        ⟨hquote, hbrace, hbracket, hatom⟩
      · rw [List.cons_append, readValue.eq_def]
        dsimp only
        rw [if_pos rfl, readString_append hs]
      · obtain ⟨m', rfl, hinner⟩ := exists_succ_of_lt hlevels
        rcases hobject with ⟨hempty, rfl⟩ | hmembers
        · exact readValue_object_nil (skipBlanks_append hempty s)
        · obtain ⟨_, names, _, _, _, _, _, _, hfront, -⟩ := readFields_cases hmembers
          have hread := ihFields hfuel hinner hmembers s
          rw [hfront] at hread
          exact (readValue_object (skipBlanks_append hfront s) (by decide)).trans hread
      · obtain ⟨m', rfl, hinner⟩ := exists_succ_of_lt hlevels
        rcases hlist with ⟨hempty, rfl⟩ | hitems
        · exact readValue_list_nil (skipBlanks_append hempty s)
        · obtain ⟨c, ds, hfront, hopen⟩ := front_of_readItems hitems
          have hread := ihItems hfuel hinner hitems s
          rw [hfront] at hread
          exact (readValue_list (skipBlanks_append hfront s) hopen).trans hread
      · have hend : EndsNumber rest := hend.resolve_left fun h => hbrace (Option.some.inj h)
        rw [List.cons_append, readValue.eq_def]
        dsimp only
        rw [if_neg hquote, if_neg hbrace, if_neg hbracket, ← List.cons_append]
        rcases hatom with hword | ⟨-, hnumber⟩
        · rw [readWord?_append hword]
        · rw [readWord?_eq_none_of_readNumber hnumber]
          exact readNumber_append hnumber hend s
    case items =>
      obtain ⟨n, w, r, hn, hvalue, hcases⟩ := readItems_cases h
      cases hn
      rw [readItems]
      rcases hcases with ⟨hclose, rfl⟩ | ⟨r', hcomma, hitems⟩
      · have hend := endsNumber_of_skipBlanks hclose (by decide)
        rw [ihValue hfuel hlevels hvalue (Or.inr hend) s]
        dsimp only
        rw [skipBlanks_append hclose]
        rfl
      · have hend := endsNumber_of_skipBlanks hcomma (by decide)
        rw [ihValue hfuel hlevels hvalue (Or.inr hend) s]
        dsimp only
        obtain ⟨c, cs, hfront, -⟩ := front_of_readItems hitems
        have hread := ihItems hfuel hlevels hitems s
        rw [hfront, ← skipBlanks_append hfront] at hread
        rw [skipBlanks_append hcomma]
        exact hread
    case fields =>
      obtain ⟨n, cs, key, r₁, r₂, w, r₃, hn, rfl, hkey, hcolon, hvalue, hcases⟩ :=
        readFields_cases h
      cases hn
      have hend : EndsNumber r₃ := by
        rcases hcases with ⟨hclose, -⟩ | ⟨r₄, hcomma, -⟩
        · exact endsNumber_of_skipBlanks hclose (by decide)
        · exact endsNumber_of_skipBlanks hcomma (by decide)
      obtain ⟨c, ds, hfront, -⟩ := front_of_readValue hvalue
      have hread := ihValue hfuel hlevels hvalue (Or.inr hend) s
      rw [hfront, ← skipBlanks_append hfront] at hread
      have hname := readString_append hkey ('"' :: (cs ++ s)) s
      have hmember := skipBlanks_append hcolon s
      rcases hcases with ⟨hclose, rfl⟩ | ⟨r₄, hcomma, hmembers⟩
      · exact readFields_close hname hmember hread (skipBlanks_append hclose s)
      · obtain ⟨_, names, _, _, _, _, _, _, hnext, -⟩ := readFields_cases hmembers
        have hrest := ihFields hfuel hlevels hmembers s
        rw [hnext, ← skipBlanks_append hnext] at hrest
        exact (readFields_next hname hmember hread (skipBlanks_append hcomma s)).trans hrest

/-! ## Objects with text around them -/

/-- The items of a list make a list. -/
theorem readItems_ne_obj {fuel levels : Nat} {seen : List Json} {fields : List (String × Json)}
    (h : readItems fuel levels seen t = .ok (.obj fields, rest)) : False := by
  induction fuel generalizing seen t with
  | zero => simp [readItems] at h
  | succ fuel ih =>
    obtain ⟨n, w, r, hn, -, ⟨-, hv⟩ | ⟨r', -, hitems⟩⟩ := readItems_cases h
    · cases hv
    · cases hn
      exact ih hitems

theorem readNumber_ne_obj {fields : List (String × Json)}
    (h : readNumber t = .ok (.obj fields, rest)) : False := by
  unfold readNumber at h
  dsimp only at h
  repeat' split at h
  all_goals cases h

/-- An object starts with a brace. -/
theorem front_of_readValue_obj {fuel levels : Nat} {fields : List (String × Json)} {c : Char}
    (h : readValue fuel levels (c :: t) = .ok (.obj fields, rest)) : c = '{' := by
  obtain ⟨n, d, cs, -, heq, hcases⟩ := readValue_cases h
  cases heq
  rcases hcases with ⟨-, s, -, hv⟩ | ⟨hc, -⟩ | ⟨-, m, -, ⟨-, hv⟩ | hitems⟩ |
    ⟨-, -, -, hword | ⟨-, hnumber⟩⟩
  · cases hv
  · exact hc
  · cases hv
  · exact (readItems_ne_obj hitems).elim
  · obtain ⟨w, hw, -⟩ := exists_word_of_readWord? hword
    simp [words] at hw
  · exact (readNumber_ne_obj hnumber).elim

/-- A text from an opening to a closing brace, and the members of the object that it holds. -/
structure IsObjectText (limit : Option Nat) (t : Text) (fields : List (String × Json)) : Prop where
  opening : t.head? = some '{'
  closing : t.getLast? = some '}'
  value : parseWithin limit t = .ok (.obj fields)

variable {limit : Option Nat} {before after : Text} {fields : List (String × Json)}

/-- No blanks follow a closing brace that a text ends with. -/
theorem eq_nil_of_blanks (h : (t ++ '}' :: rest).getLast? = some '}') (hblank : skipBlanks rest = []) :
    rest = [] := by
  cases rest with
  | nil => rfl
  | cons c cs =>
    rw [List.getLast?_append, List.getLast?_cons_cons, List.getLast?_cons, Option.some_or,
      ← List.getLast?_cons] at h
    have hlast := List.dropWhile_eq_nil_iff.mp hblank '}' (List.mem_of_getLast? h)
    cases hlast

/-- The whole text is read, and it is a balanced text between its braces. -/
theorem IsObjectText.exists_inner (h : IsObjectText limit t fields) :
    ∃ u, t = '{' :: (u ++ ['}']) ∧ Balanced u ∧
      readValue (2 * t.length + 2) (limit.getD t.length) t = .ok (.obj fields, []) := by
  obtain ⟨hopen, hclose, hvalue⟩ := h
  cases t with
  | nil => cases hopen
  | cons c cs =>
    obtain rfl : c = '{' := Option.some.inj hopen
    unfold parseWithin at hvalue
    rw [if_neg (by show some '{' ≠ _; decide)] at hvalue
    have hblanks : skipBlanks ('{' :: cs) = '{' :: cs := rfl
    rw [hblanks] at hvalue
    split at hvalue
    · cases hvalue
    next v rest hread =>
    obtain ⟨u, hsplit, hu⟩ := passes_of_object hread
    split at hvalue
    · next hend =>
      cases hvalue
      rw [hsplit, ← List.cons_append] at hclose
      obtain rfl := eq_nil_of_blanks hclose hend
      exact ⟨u, congrArg ('{' :: ·) hsplit, hu, hread⟩
    · cases hvalue

/-- The object is read in the same way where text follows it. -/
theorem IsObjectText.readValue_append (h : IsObjectText limit t fields) (before after : Text) :
    readValue (2 * (before ++ (t ++ after)).length + 2)
        (limit.getD (before ++ (t ++ after)).length) (t ++ after) = .ok (.obj fields, after) := by
  obtain ⟨u, -, -, hread⟩ := h.exists_inner
  have hlength : t.length ≤ (before ++ (t ++ after)).length := by
    simp only [List.length_append]
    omega
  refine (read_append _).1 (by omega) ?_ hread (Or.inl h.opening) after
  cases limit with
  | none => exact hlength
  | some n => exact Nat.le_refl n

/-- The first token of the whole is the brace of the object or stands in front of it. -/
theorem skipBlanks_around (hopen : t.head? = some '{') (before : Text) :
    skipBlanks (before ++ t) = t ∨ ∃ c r, skipBlanks (before ++ t) = c :: r ∧ c ∈ before := by
  cases hbefore : skipBlanks before with
  | nil =>
    obtain ⟨cs, rfl⟩ : ∃ cs, t = '{' :: cs := by
      cases t with
      | nil => cases hopen
      | cons c cs => exact ⟨cs, congrArg (· :: cs) (Option.some.inj hopen)⟩
    unfold skipBlanks at hbefore
    refine Or.inl ?_
    unfold skipBlanks
    rw [List.dropWhile_append, hbefore]
    rfl
  | cons c r =>
    refine Or.inr ⟨c, r ++ t, skipBlanks_append hbefore t, ?_⟩
    refine (List.dropWhile_sublist isBlank).subset ?_
    rw [← skipBlanks, hbefore]
    exact List.mem_cons_self

/-- If the whole is an object as well, it is the same one. -/
theorem parseWithin_around_obj {found : List (String × Json)} (h : IsObjectText limit t fields)
    (hbefore : '{' ∉ before) (hwhole : parseWithin limit (before ++ (t ++ after)) = .ok (.obj found)) :
    found = fields := by
  have hopen : (t ++ after).head? = some '{' := by
    rw [List.head?_append, h.opening]
    rfl
  unfold parseWithin at hwhole
  split at hwhole
  · cases hwhole
  split at hwhole
  · cases hwhole
  next v rest hread =>
  have hv : v = .obj found := by
    split at hwhole
    · cases hwhole
      rfl
    · cases hwhole
  rcases skipBlanks_around hopen before with hfront | ⟨c, r, hfront, hc⟩
  -- only blanks stand in front: the first value of the whole is the object
  · rw [hfront, h.readValue_append before after] at hread
    cases hread
    cases hv
    rfl
  -- the first value starts in front of the object, and not with a brace
  · rw [hfront, hv] at hread
    exact absurd (front_of_readValue_obj hread ▸ hc) hbefore

/-- If the whole goes too deep, a list is opened in front of the object. -/
theorem parseWithin_around_nesting {f : Fault} (h : IsObjectText limit t fields)
    (hbefore : '{' ∉ before) (hwhole : parseWithin limit (before ++ (t ++ after)) = .error f)
    (hf : f.cause.isNesting = true) : '[' ∈ before := by
  have hopen : (t ++ after).head? = some '{' := by
    rw [List.head?_append, h.opening]
    rfl
  unfold parseWithin at hwhole
  split at hwhole
  · cases hwhole
    cases hf
  split at hwhole
  · next g hread =>
    cases hwhole
    rcases skipBlanks_around hopen before with hfront | ⟨c, r, hfront, hc⟩
    · rw [hfront, h.readValue_append before after] at hread
      cases hread
    · rw [hfront] at hread
      obtain ⟨d, ds, heq, hopening, -⟩ := readValue_nesting hread hf
      cases heq
      rcases hopening with rfl | rfl
      · exact absurd hc hbefore
      · exact hc
  · split at hwhole
    · cases hwhole
    · cases hwhole
      cases hf

end PatchLint.Json
