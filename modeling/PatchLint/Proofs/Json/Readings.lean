import PatchLint.Proofs.Json.Balanced

/-!
# Readings without limits

What a text holds does not depend on the limits of a reader: on how deep it goes, and on how many digits it
converts. `Reads` says what stands at the front of a text by the rules of the grammar alone, and `IsTextOf` what a
whole text holds. A text holds at most one value, and a reader finds it, if no integer has too many digits for it.

* `Reads.unique` — what stands at the front of a text, and where it ends, is determined
* `Reads.found`, `reads_of_read` — the reader finds it, with enough fuel and enough levels, and nothing else
* `IsTextOf.unique`, `parse_eq_ok_iff` — the same of whole texts
-/

namespace PatchLint.Json

variable {digits : Option Nat} {t r rest : Text} {v : Json}

theorem Passes.length_le (h : Passes t rest) : rest.length ≤ t.length := by
  obtain ⟨u, rfl, -⟩ := h
  simp

theorem length_skipBlanks_le (t : Text) : (skipBlanks t).length ≤ t.length := (Passes.blanks t).length_le

/-- The text behind a character, and behind the blanks that follow it, is shorter. -/
theorem length_lt_of_skipBlanks {c : Char} (h : skipBlanks t = c :: r) :
    (skipBlanks r).length ≤ r.length ∧ r.length < t.length := by
  have hle := length_skipBlanks_le t
  rw [h] at hle
  exact ⟨length_skipBlanks_le r, hle⟩

/-! ## Words and numbers -/

/-- The integer at the front of a text, with the number of its digits. A number that has a point or an exponent is
no integer. -/
def readInteger? (t : Text) : Option (Int × Nat × Text) :=
  match readWhole? (readMinus t).2 with
  | none => none
  | some (whole, rest) =>
    if (readFraction rest).1.isEmpty && (readExponent? (readFraction rest).2).isNone then
      let n : Int := Text.value whole
      some (if (readMinus t).1 then -n else n, whole.length, (readFraction rest).2)
    else none

/-- The word or the number at the front of a text. An integer may have as many digits as a limit says. -/
def readAtom? (digits : Option Nat) (t : Text) : Option (Json × Text) :=
  match readWord? t with
  | some found => some found
  | none =>
    match readInteger? t with
    | some (n, count, rest) => if digits.all (count ≤ ·) then some (.int n, rest) else none
    | none => (readNumber t).toOption

/-- The reader of numbers reads an integer, unless it has too many digits. -/
theorem readNumber_of_readInteger? {n : Int} {count : Nat} (h : readInteger? t = some (n, count, rest)) :
    readNumber t = if digitLimit < count then .error ⟨.digits count, t⟩ else .ok (.int n, rest) := by
  unfold readInteger? at h
  split at h
  · cases h
  next whole body hwhole =>
  split at h
  · next hint =>
    rw [Bool.and_eq_true, Option.isNone_iff_eq_none] at hint
    simp only [Option.some.injEq, Prod.mk.injEq] at h
    obtain ⟨hn, rfl, rfl⟩ := h
    simp only [readNumber, hwhole, hint.1, hint.2, if_true, hn]
  · cases h

/-- With the limit of the reader, an atom is what the reader takes for one. -/
theorem readAtom?_eq_some_iff : readAtom? (some digitLimit) t = some (v, rest) ↔
    readWord? t = some (v, rest) ∨ readWord? t = none ∧ readNumber t = .ok (v, rest) := by
  unfold readAtom?
  match hword : readWord? t with
  | some found => simp
  | none =>
    simp only [reduceCtorEq, true_and, false_or]
    match hinteger : readInteger? t with
    | some (n, count, after) =>
      rw [readNumber_of_readInteger? hinteger]
      by_cases hcount : digitLimit < count
      · simp [hcount, Nat.not_le.mpr hcount]
      · simp [hcount, Nat.not_lt.mp hcount]
    | none =>
      cases readNumber t <;> simp [Except.toOption]

theorem length_le_of_readAtom? (h : readAtom? (some digitLimit) t = some (v, rest)) :
    rest.length ≤ t.length := by
  rcases readAtom?_eq_some_iff.mp h with hword | ⟨-, hnumber⟩
  · obtain ⟨w, -, rfl⟩ := exists_word_of_readWord? hword
    simp
  · exact (passes_of_readNumber hnumber).length_le

/-! ## The grammar -/

/-- What can stand at the front of a text: a value, the items of a list or the members of an object, up to the
bracket or the brace that ends them. -/
inductive Part where
  | value (v : Json)
  | items (vs : List Json)
  | members (fields : List (String × Json))

/-- Whether two parts are of one sort. -/
def Part.SameSort : Part → Part → Prop
  | .value _, .value _ | .items _, .items _ | .members _, .members _ => True
  | _, _ => False

/-- The members of an object that are written one after another; of two with one name the later value counts. -/
def insertAll (seen fields : List (String × Json)) : List (String × Json) :=
  fields.foldl (fun seen f => insertField f.1 f.2 seen) seen

/-- `Reads digits t p rest`: at the front of `t` stands `p`, and `rest` is what follows it. An integer has no more
digits than the limit says. -/
inductive Reads (digits : Option Nat) : Text → Part → Text → Prop
  | string {cs s rest : Text} (text : readString ('"' :: cs) [] cs = .ok (s, rest)) :
      Reads digits ('"' :: cs) (.value (.str (String.ofList s))) rest
  | atom {c : Char} {cs rest : Text} {v : Json} (other : c ≠ '"' ∧ c ≠ '{' ∧ c ≠ '[')
      (found : readAtom? digits (c :: cs) = some (v, rest)) : Reads digits (c :: cs) (.value v) rest
  | emptyList {cs rest : Text} (close : skipBlanks cs = ']' :: rest) :
      Reads digits ('[' :: cs) (.value (.arr [])) rest
  | list {cs rest : Text} {vs : List Json} (items : Reads digits (skipBlanks cs) (.items vs) rest) :
      Reads digits ('[' :: cs) (.value (.arr vs)) rest
  | emptyObject {cs rest : Text} (close : skipBlanks cs = '}' :: rest) :
      Reads digits ('{' :: cs) (.value (.obj [])) rest
  | object {cs rest : Text} {fields : List (String × Json)}
      (members : Reads digits (skipBlanks cs) (.members fields) rest) :
      Reads digits ('{' :: cs) (.value (.obj (insertAll [] fields))) rest
  | lastItem {t r rest : Text} {v : Json} (value : Reads digits t (.value v) r)
      (close : skipBlanks r = ']' :: rest) : Reads digits t (.items [v]) rest
  | nextItem {t r r' rest : Text} {v : Json} {vs : List Json} (value : Reads digits t (.value v) r)
      (comma : skipBlanks r = ',' :: r') (items : Reads digits (skipBlanks r') (.items vs) rest) :
      Reads digits t (.items (v :: vs)) rest
  | lastMember {cs key r₁ r₂ r₃ rest : Text} {v : Json}
      (name : readString ('"' :: cs) [] cs = .ok (key, r₁)) (colon : skipBlanks r₁ = ':' :: r₂)
      (value : Reads digits (skipBlanks r₂) (.value v) r₃) (close : skipBlanks r₃ = '}' :: rest) :
      Reads digits ('"' :: cs) (.members [(String.ofList key, v)]) rest
  | nextMember {cs key r₁ r₂ r₃ r₄ rest : Text} {v : Json} {fields : List (String × Json)}
      (name : readString ('"' :: cs) [] cs = .ok (key, r₁)) (colon : skipBlanks r₁ = ':' :: r₂)
      (value : Reads digits (skipBlanks r₂) (.value v) r₃) (comma : skipBlanks r₃ = ',' :: r₄)
      (members : Reads digits (skipBlanks r₄) (.members fields) rest) :
      Reads digits ('"' :: cs) (.members ((String.ofList key, v) :: fields)) rest

/-- No word and no number starts with a blank or with the bracket that ends a list. -/
theorem readAtom?_eq_none {c : Char} (hc : isBlank c = true ∨ c = ']') (cs : Text) :
    readAtom? digits (c :: cs) = none := by
  simp only [isBlank, Bool.or_eq_true, decide_eq_true_eq] at hc
  rcases hc with (((rfl | rfl) | rfl) | rfl) | rfl <;> rfl

/-- No value starts with the bracket that ends a list. -/
theorem Reads.value_front (h : Reads digits t (.value v) rest) : ∃ c cs, t = c :: cs ∧ c ≠ ']' := by
  cases h with
  | @atom c cs _ _ _ found =>
    refine ⟨c, cs, rfl, fun hc => ?_⟩
    cases (readAtom?_eq_none (Or.inr hc) cs).symm.trans found
  | _ => exact ⟨_, _, rfl, by decide⟩

theorem Reads.items_front {vs : List Json} (h : Reads digits t (.items vs) rest) :
    ∃ c cs, t = c :: cs ∧ c ≠ ']' := by
  cases h with
  | lastItem value _ => exact value.value_front
  | nextItem value _ _ => exact value.value_front

theorem Reads.members_front {fields : List (String × Json)} (h : Reads digits t (.members fields) rest) :
    ∃ c cs, t = c :: cs ∧ c ≠ '}' := by
  cases h <;> exact ⟨_, _, rfl, by decide⟩

/-- A list with items is not closed at once. -/
theorem Reads.items_not_closed {vs : List Json} (h : Reads digits t (.items vs) rest) (close : t = ']' :: r) :
    False := by
  obtain ⟨c, cs, hfront, hc⟩ := h.items_front
  cases close.symm.trans hfront
  exact hc rfl

theorem Reads.members_not_closed {fields : List (String × Json)} (h : Reads digits t (.members fields) rest)
    (close : t = '}' :: r) : False := by
  obtain ⟨c, cs, hfront, hc⟩ := h.members_front
  cases close.symm.trans hfront
  exact hc rfl

/-- Nothing that is read starts with a blank. -/
theorem Reads.skipBlanks_eq {p : Part} (h : Reads digits t p rest) : skipBlanks t = t := by
  induction h with
  | @atom c cs rest v other found =>
    refine List.dropWhile_cons_of_neg fun hc => ?_
    cases (readAtom?_eq_none (Or.inl hc) cs).symm.trans found
  | lastItem value close ih => exact ih
  | nextItem value comma items ih _ => exact ih
  | _ => exact List.dropWhile_cons_of_neg (by decide)

/-- **What stands at the front of a text, and where it ends, is determined.** -/
theorem Reads.unique {p p' : Part} {r r' : Text} (h : Reads digits t p r) (h' : Reads digits t p' r')
    (hsort : p.SameSort p') : p = p' ∧ r = r' := by
  -- by the first reading: where its parts end is determined, and the character that follows tells how the other
  -- reading has to go on
  induction h generalizing p' r' with
  | string text =>
    cases h' with
    | string text' =>
      cases text.symm.trans text'
      exact ⟨rfl, rfl⟩
    | atom other _ => exact absurd rfl other.1
    | _ => cases hsort
  | atom other found =>
    cases h' with
    | string _ => exact absurd rfl other.1
    | atom _ found' =>
      cases found.symm.trans found'
      exact ⟨rfl, rfl⟩
    | emptyList | list => exact absurd rfl other.2.2
    | emptyObject | object => exact absurd rfl other.2.1
    | _ => cases hsort
  | emptyList close =>
    cases h' with
    | atom other _ => exact absurd rfl other.2.2
    | emptyList close' =>
      cases close.symm.trans close'
      exact ⟨rfl, rfl⟩
    | list items => exact (items.items_not_closed close).elim
    | _ => cases hsort
  | list items ih =>
    cases h' with
    | atom other _ => exact absurd rfl other.2.2
    | emptyList close => exact (items.items_not_closed close).elim
    | list items' =>
      obtain ⟨hvs, hrest⟩ := ih items' trivial
      cases hvs
      exact ⟨rfl, hrest⟩
    | _ => cases hsort
  | emptyObject close =>
    cases h' with
    | atom other _ => exact absurd rfl other.2.1
    | emptyObject close' =>
      cases close.symm.trans close'
      exact ⟨rfl, rfl⟩
    | object members => exact (members.members_not_closed close).elim
    | _ => cases hsort
  | object members ih =>
    cases h' with
    | atom other _ => exact absurd rfl other.2.1
    | emptyObject close => exact (members.members_not_closed close).elim
    | object members' =>
      obtain ⟨hfields, hrest⟩ := ih members' trivial
      cases hfields
      exact ⟨rfl, hrest⟩
    | _ => cases hsort
  | lastItem value close ih =>
    cases h' with
    | lastItem value' close' =>
      obtain ⟨hv, rfl⟩ := ih value' trivial
      cases hv
      cases close.symm.trans close'
      exact ⟨rfl, rfl⟩
    | nextItem value' comma _ =>
      obtain ⟨-, rfl⟩ := ih value' trivial
      cases close.symm.trans comma
    | _ => cases hsort
  | nextItem value comma items ihValue ihItems =>
    cases h' with
    | lastItem value' close =>
      obtain ⟨-, rfl⟩ := ihValue value' trivial
      cases comma.symm.trans close
    | nextItem value' comma' items' =>
      obtain ⟨hv, rfl⟩ := ihValue value' trivial
      cases hv
      cases comma.symm.trans comma'
      obtain ⟨hvs, hrest⟩ := ihItems items' trivial
      cases hvs
      exact ⟨rfl, hrest⟩
    | _ => cases hsort
  | lastMember name colon value close ih =>
    cases h' with
    | lastMember name' colon' value' close' =>
      cases name.symm.trans name'
      cases colon.symm.trans colon'
      obtain ⟨hv, rfl⟩ := ih value' trivial
      cases hv
      cases close.symm.trans close'
      exact ⟨rfl, rfl⟩
    | nextMember name' colon' value' comma _ =>
      cases name.symm.trans name'
      cases colon.symm.trans colon'
      obtain ⟨-, rfl⟩ := ih value' trivial
      cases close.symm.trans comma
    | _ => cases hsort
  | nextMember name colon value comma members ihValue ihMembers =>
    cases h' with
    | lastMember name' colon' value' close =>
      cases name.symm.trans name'
      cases colon.symm.trans colon'
      obtain ⟨-, rfl⟩ := ihValue value' trivial
      cases comma.symm.trans close
    | nextMember name' colon' value' comma' members' =>
      cases name.symm.trans name'
      cases colon.symm.trans colon'
      obtain ⟨hv, rfl⟩ := ihValue value' trivial
      cases hv
      cases comma.symm.trans comma'
      obtain ⟨hfields, hrest⟩ := ihMembers members' trivial
      cases hfields
      exact ⟨rfl, hrest⟩
    | _ => cases hsort

/-! ## The reader and the grammar -/

/-- What is read ends within its text. -/
theorem Reads.length_le {p : Part} (h : Reads (some digitLimit) t p rest) : rest.length ≤ t.length := by
  induction h with
  | string text => exact (passes_of_readString text).length_le
  | atom other found => exact length_le_of_readAtom? found
  | emptyList close | emptyObject close => exact (length_lt_of_skipBlanks close).2.le.trans (Nat.le_succ _)
  | list items ih | object members ih => exact ih.trans ((length_skipBlanks_le _).trans (Nat.le_succ _))
  | lastItem value close ih => exact (length_lt_of_skipBlanks close).2.le.trans ih
  | nextItem value comma items ihValue ihItems =>
    have hcomma := length_lt_of_skipBlanks comma
    omega
  | lastMember name colon value close ih =>
    have hname := (passes_of_readString name).length_le
    have hcolon := length_lt_of_skipBlanks colon
    have hclose := length_lt_of_skipBlanks close
    omega
  | nextMember name colon value comma members ihValue ihMembers =>
    have hname := (passes_of_readString name).length_le
    have hcolon := length_lt_of_skipBlanks colon
    have hcomma := length_lt_of_skipBlanks comma
    omega

/-- The reader finds a part: with fuel for its characters, and with levels for them. -/
def Part.Found (t rest : Text) : Part → Prop
  | .value v => ∀ fuel levels, 2 * t.length + 1 ≤ fuel + 2 * rest.length →
      t.length ≤ levels + rest.length → readValue fuel levels t = .ok (v, rest)
  | .items vs => ∀ fuel levels seen, 2 * t.length + 2 ≤ fuel + 2 * rest.length →
      t.length ≤ levels + rest.length →
      readItems fuel levels seen t = .ok (.arr (seen.reverse ++ vs), rest)
  | .members fields => ∀ fuel levels seen, 2 * t.length + 2 ≤ fuel + 2 * rest.length →
      t.length ≤ levels + rest.length →
      readFields fuel levels seen t = .ok (.obj (insertAll seen fields), rest)

/-- A bracket or a brace takes one unit of fuel and one level. -/
theorem exists_enter {fuel levels : Nat} {cs : Text} (hfuel : 2 * (cs.length + 1) + 1 ≤ fuel + 2 * rest.length)
    (hlevels : cs.length + 1 ≤ levels + rest.length) (hrest : rest.length ≤ cs.length) :
    ∃ n m, fuel = n + 1 ∧ levels = m + 1 ∧ 2 * (skipBlanks cs).length + 2 ≤ n + 2 * rest.length ∧
      (skipBlanks cs).length ≤ m + rest.length := by
  have hblanks := length_skipBlanks_le cs
  exact ⟨fuel - 1, levels - 1, by omega, by omega, by omega, by omega⟩

/-- **What stands at the front of a text is found**, with enough fuel and enough levels. -/
theorem Reads.found {p : Part} (h : Reads (some digitLimit) t p rest) : p.Found t rest := by
  induction h with
  | string text =>
    intro fuel levels hfuel _
    have hend := (Reads.string text).length_le
    obtain ⟨n, rfl⟩ : ∃ n, fuel = n + 1 := Nat.exists_eq_add_one.mpr (by omega)
    simp only [readValue, if_true, text]
  | atom other found =>
    intro fuel levels hfuel _
    have hend := (Reads.atom other found).length_le
    obtain ⟨n, rfl⟩ : ∃ n, fuel = n + 1 := Nat.exists_eq_add_one.mpr (by omega)
    rw [readValue.eq_def]
    dsimp only
    rw [if_neg other.1, if_neg other.2.1, if_neg other.2.2]
    rcases readAtom?_eq_some_iff.mp found with hword | ⟨hword, hnumber⟩
    · rw [hword]
    · rw [hword, hnumber]
  | emptyList close =>
    intro fuel levels hfuel hlevels
    obtain ⟨n, m, rfl, rfl, -⟩ := exists_enter hfuel hlevels (length_lt_of_skipBlanks close).2.le
    exact readValue_list_nil close
  | emptyObject close =>
    intro fuel levels hfuel hlevels
    obtain ⟨n, m, rfl, rfl, -⟩ := exists_enter hfuel hlevels (length_lt_of_skipBlanks close).2.le
    exact readValue_object_nil close
  | list items ih =>
    intro fuel levels hfuel hlevels
    obtain ⟨n, m, rfl, rfl, hfuel, hlevels⟩ :=
      exists_enter hfuel hlevels (items.length_le.trans (length_skipBlanks_le _))
    obtain ⟨c, r, hfront, hc⟩ := items.items_front
    rw [readValue_list hfront hc, ← hfront]
    exact ih n m [] hfuel hlevels
  | object members ih =>
    intro fuel levels hfuel hlevels
    obtain ⟨n, m, rfl, rfl, hfuel, hlevels⟩ :=
      exists_enter hfuel hlevels (members.length_le.trans (length_skipBlanks_le _))
    obtain ⟨c, r, hfront, hc⟩ := members.members_front
    rw [readValue_object hfront hc, ← hfront]
    exact ih n m [] hfuel hlevels
  | lastItem value close ih =>
    intro fuel levels seen hfuel hlevels
    have hvalue := value.length_le
    have hclose := length_lt_of_skipBlanks close
    obtain ⟨n, rfl⟩ : ∃ n, fuel = n + 1 := Nat.exists_eq_add_one.mpr (by omega)
    rw [readItems_close (ih n levels (by omega) (by omega)) close, List.reverse_cons]
  | nextItem value comma items ihValue ihItems =>
    intro fuel levels seen hfuel hlevels
    have hvalue := value.length_le
    have hcomma := length_lt_of_skipBlanks comma
    have hitems := items.length_le
    obtain ⟨n, rfl⟩ : ∃ n, fuel = n + 1 := Nat.exists_eq_add_one.mpr (by omega)
    rw [readItems_next (ihValue n levels (by omega) (by omega)) comma, ihItems n levels _ (by omega) (by omega)]
    simp
  | lastMember name colon value close ih =>
    intro fuel levels seen hfuel hlevels
    have hname := (passes_of_readString name).length_le
    have hcolon := length_lt_of_skipBlanks colon
    have hvalue := value.length_le
    have hclose := length_lt_of_skipBlanks close
    obtain ⟨n, rfl⟩ : ∃ n, fuel = n + 1 := Nat.exists_eq_add_one.mpr (by omega)
    exact readFields_close name colon (ih n levels (by omega) (by omega)) close
  | nextMember name colon value comma members ihValue ihMembers =>
    intro fuel levels seen hfuel hlevels
    have hname := (passes_of_readString name).length_le
    have hcolon := length_lt_of_skipBlanks colon
    have hvalue := value.length_le
    have hcomma := length_lt_of_skipBlanks comma
    have hmembers := members.length_le
    obtain ⟨n, rfl⟩ : ∃ n, fuel = n + 1 := Nat.exists_eq_add_one.mpr (by omega)
    rw [readFields_next name colon (ihValue n levels (by omega) (by omega)) comma,
      ihMembers n levels _ (by omega) (by omega)]
    rfl

/-- **What the reader takes stands at the front of the text**, however much fuel and however many levels it has. -/
theorem reads_of_read (fuel : Nat) :
    (∀ {levels : Nat} {t rest : Text} {v : Json}, readValue fuel levels t = .ok (v, rest) →
      Reads (some digitLimit) t (.value v) rest) ∧
    (∀ {levels : Nat} {seen : List Json} {t rest : Text} {v : Json},
      readItems fuel levels seen t = .ok (v, rest) →
      ∃ vs, v = .arr (seen.reverse ++ vs) ∧ Reads (some digitLimit) t (.items vs) rest) ∧
    (∀ {levels : Nat} {seen : List (String × Json)} {t rest : Text} {v : Json},
      readFields fuel levels seen t = .ok (v, rest) →
      ∃ fields, v = .obj (insertAll seen fields) ∧ Reads (some digitLimit) t (.members fields) rest) := by
  -- by the fuel, which every call of a reader lowers
  induction fuel with
  | zero =>
    refine ⟨fun h => ?_, fun h => ?_, fun h => ?_⟩
    · simp [readValue] at h
    · simp [readItems] at h
    · simp [readFields] at h
  | succ fuel ih =>
    obtain ⟨ihValue, ihItems, ihFields⟩ := ih
    refine ⟨fun {levels t rest v} h => ?value, fun {levels seen t rest v} h => ?items,
      fun {levels seen t rest v} h => ?fields⟩
    case value =>
      obtain ⟨n, c, cs, hfuel, rfl, hcases⟩ := readValue_cases h
      cases hfuel
      rcases hcases with ⟨rfl, s, hs, rfl⟩ | ⟨rfl, m, -, hobject⟩ | ⟨rfl, m, -, hlist⟩ | ⟨hq, ho, hl, hatom⟩
      · exact .string hs
      · rcases hobject with ⟨hclose, rfl⟩ | hmembers
        · exact .emptyObject hclose
        · obtain ⟨fields, rfl, hfields⟩ := ihFields hmembers
          exact .object hfields
      · rcases hlist with ⟨hclose, rfl⟩ | hitems
        · exact .emptyList hclose
        · obtain ⟨vs, rfl, hvs⟩ := ihItems hitems
          exact .list hvs
      · exact .atom ⟨hq, ho, hl⟩ (readAtom?_eq_some_iff.mpr hatom)
    case items =>
      obtain ⟨n, w, r, hfuel, hvalue, hcases⟩ := readItems_cases h
      cases hfuel
      rcases hcases with ⟨hclose, rfl⟩ | ⟨r', hcomma, hitems⟩
      · exact ⟨[w], by rw [List.reverse_cons], .lastItem (ihValue hvalue) hclose⟩
      · obtain ⟨vs, rfl, hvs⟩ := ihItems hitems
        exact ⟨w :: vs, by simp, .nextItem (ihValue hvalue) hcomma hvs⟩
    case fields =>
      obtain ⟨n, cs, key, r₁, r₂, w, r₃, hfuel, rfl, hkey, hcolon, hvalue, hcases⟩ := readFields_cases h
      cases hfuel
      rcases hcases with ⟨hclose, rfl⟩ | ⟨r₄, hcomma, hmembers⟩
      · exact ⟨[(String.ofList key, w)], rfl, .lastMember hkey hcolon (ihValue hvalue) hclose⟩
      · obtain ⟨fields, rfl, hfields⟩ := ihFields hmembers
        exact ⟨(String.ofList key, w) :: fields, rfl, .nextMember hkey hcolon (ihValue hvalue) hcomma hfields⟩

/-! ## Whole texts -/

/-- A text holds a value, with blanks around it. It does not start with a byte order mark. -/
def IsTextOf (digits : Option Nat) (t : Text) (v : Json) : Prop :=
  t.head? ≠ some (Char.ofNat 0xFEFF) ∧
    ∃ rest, Reads digits (skipBlanks t) (.value v) rest ∧ skipBlanks rest = []

/-- A value with nothing but blanks behind it is what its text holds. -/
theorem IsTextOf.of_reads (h : Reads digits t (.value v) rest) (hrest : skipBlanks rest = []) :
    IsTextOf digits t v := by
  refine ⟨?_, rest, ?_, hrest⟩
  · cases h with
    | @atom c cs rest v other found =>
      rintro ⟨⟩
      cases found
    | _ =>
      rintro ⟨⟩
  · rw [h.skipBlanks_eq]
    exact h

/-- **A text holds at most one value.** -/
theorem IsTextOf.unique {w : Json} (h : IsTextOf digits t v) (h' : IsTextOf digits t w) : v = w := by
  obtain ⟨-, rest, hreads, -⟩ := h
  obtain ⟨-, rest', hreads', -⟩ := h'
  obtain ⟨hpart, -⟩ := hreads.unique hreads' trivial
  exact Part.value.inj hpart

/-- **The reader gives the value that a text holds**, if no integer in it has too many digits, and no other value. -/
theorem parse_eq_ok_iff : parse t = .ok v ↔ IsTextOf (some digitLimit) t v := by
  unfold parse parseWithin IsTextOf
  by_cases hmark : t.head? = some (Char.ofNat 0xFEFF)
  · simp [hmark]
  rw [if_neg hmark]
  constructor
  · intro h
    refine ⟨hmark, ?_⟩
    split at h
    · cases h
    next w rest hread =>
    split at h
    · next hrest =>
      cases h
      exact ⟨rest, (reads_of_read _).1 hread, hrest⟩
    · cases h
  · rintro ⟨-, rest, hreads, hrest⟩
    have hblanks := length_skipBlanks_le t
    have hread : readValue (2 * t.length + 2) t.length (skipBlanks t) = .ok (v, rest) :=
      hreads.found _ _ (by omega) (by omega)
    rw [Option.getD_none, hread]
    dsimp only
    rw [hrest]

end PatchLint.Json
