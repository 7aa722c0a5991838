import Mathlib.Algebra.Group.Nat.Defs
import PatchLint.Proofs.Json.Escapes
import PatchLint.Proofs.Json.Readings
import PatchLint.Proofs.Json.Tokens

/-!
# Values that are written and read back

A value that is written over several lines stands in the text again: the text holds this value and no other one.
The value has to be one that the grammar can tell (`Exact`): the members of an object have different names, an
integer has as many digits as a reader takes, and there are no floating point numbers.

* `reads_ofInt` — an integer, up to what ends it
* `Exact.reads` — a value, and the items or the members inside of it
* `isTextOf_pretty` — the whole text
-/

namespace PatchLint.Json

variable {digits : Option Nat} {rest : Text}

/-! ## Integers -/

theorem isDigit_digitChar {d : Nat} (h : d < 10) : isDigit (Text.digitChar d) = true := by
  have hall : ∀ e ∈ List.range 10, isDigit (Text.digitChar e) = true := by decide
  exact hall d (List.mem_range.mpr h)

theorem digitChar_ne_zero {d : Nat} (h : d < 10) (hd : d ≠ 0) : Text.digitChar d ≠ '0' := by
  have hall : ∀ e ∈ List.range 10, e ≠ 0 → Text.digitChar e ≠ '0' := by decide
  exact hall d (List.mem_range.mpr h) hd

/-- A numeral is a run of digits, and only that of zero starts with a zero. -/
theorem ofNat_front (n : Nat) : ∃ c cs, Text.ofNat n = c :: cs ∧ (n ≠ 0 → c ≠ '0') ∧
    ∀ d ∈ c :: cs, isDigit d = true := by
  fun_induction Text.ofNat n with
  | case1 n hn => exact ⟨_, _, rfl, digitChar_ne_zero hn, by simpa using isDigit_digitChar hn⟩
  | case2 n hn ih =>
    obtain ⟨c, cs, heq, hc, hdigits⟩ := ih
    refine ⟨c, cs ++ [Text.digitChar (n % 10)], by rw [heq]; rfl, fun _ => hc (by omega), fun d hd => ?_⟩
    rw [← List.cons_append, List.mem_append, List.mem_singleton] at hd
    rcases hd with hd | rfl
    · exact hdigits d hd
    · exact isDigit_digitChar (Nat.mod_lt n (by decide))

/-- Whether a text is empty or starts with a character that belongs to no number. -/
def IsEnd (t : Text) : Prop := t = [] ∨ EndsNumber t

theorem IsEnd.takeWhile_eq_nil (h : IsEnd rest) : rest.takeWhile isDigit = [] ∧ rest.dropWhile isDigit = rest := by
  rcases h with rfl | h
  · exact ⟨rfl, rfl⟩
  · obtain ⟨c, cs, rfl⟩ := List.exists_cons_of_ne_nil h.ne_nil
    have hc : ¬isDigit c = true := Bool.eq_false_iff.mp h.1
    exact ⟨List.takeWhile_cons_of_neg hc, List.dropWhile_cons_of_neg hc⟩

theorem IsEnd.readFraction_eq (h : IsEnd rest) : readFraction rest = ([], rest) := by
  rcases h with rfl | h
  · rfl
  · obtain ⟨c, cs, rfl⟩ := List.exists_cons_of_ne_nil h.ne_nil
    simp [readFraction, h.2.1]

theorem IsEnd.readExponent?_eq (h : IsEnd rest) : readExponent? rest = none := by
  rcases h with rfl | h
  · rfl
  · exact readExponent?_eq_none h

theorem readWhole?_ofNat (n : Nat) (hend : IsEnd rest) :
    readWhole? (Text.ofNat n ++ rest) = some (Text.ofNat n, rest) := by
  obtain ⟨c, cs, heq, hc, hdigits⟩ := ofNat_front n
  by_cases hn : n = 0
  · subst hn
    rw [Text.ofNat, if_pos (by decide)]
    rfl
  · have htake : (Text.ofNat n ++ rest).takeWhile isDigit = Text.ofNat n := by
      rw [List.takeWhile_append_of_pos (heq ▸ hdigits), hend.takeWhile_eq_nil.1, List.append_nil]
    have hdrop : (Text.ofNat n ++ rest).dropWhile isDigit = rest := by
      rw [List.dropWhile_append_of_pos (heq ▸ hdigits), hend.takeWhile_eq_nil.2]
    rw [heq, List.cons_append] at htake hdrop ⊢
    rw [readWhole?, if_neg (hc hn), if_pos (hdigits c List.mem_cons_self), htake, hdrop]

/-- The sign of a number, and its digits. -/
theorem readMinus_ofInt (n : Int) (rest : Text) :
    readMinus (Text.ofInt n ++ rest) = (decide (n < 0), Text.ofNat n.natAbs ++ rest) := by
  cases n with
  | ofNat n =>
    obtain ⟨c, cs, heq, -, hdigits⟩ := ofNat_front n
    have hc : c ≠ '-' := by
      rintro rfl
      cases hdigits _ List.mem_cons_self
    simp [Text.ofInt, heq, readMinus, hc]
  | negSucc n => simp [Text.ofInt, readMinus, Int.negSucc_lt_zero]

/-- Whether an integer has no more digits than a limit says. -/
def IsShort (digits : Option Nat) (n : Int) : Prop := digits.all ((Text.ofNat n.natAbs).length ≤ ·) = true

theorem isShort_none (n : Int) : IsShort none n := rfl

/-- A number below a power of ten has no more digits than the power has zeros. -/
theorem isShort_of_lt {n : Int} {k : Nat} (hk : 0 < k) (h : n.natAbs < 10 ^ k) : IsShort (some k) n := by
  refine decide_eq_true ((Text.length_ofNat_le_iff hk).mpr ?_)
  rw [Text.powerOfTen]
  exact h

theorem readAtom?_ofInt {n : Int} (hn : IsShort digits n) (hend : IsEnd rest) :
    readAtom? digits (Text.ofInt n ++ rest) = some (.int n, rest) := by
  have hword : readWord? (Text.ofInt n ++ rest) = none := by
    obtain ⟨c, cs, heq, -, hdigits⟩ := ofNat_front n.natAbs
    have hfront : (readMinus (Text.ofInt n ++ rest)).2 = c :: (cs ++ rest) := by
      rw [readMinus_ofInt, heq]
      rfl
    exact readWord?_eq_none_of_digit hfront (hdigits c List.mem_cons_self)
  have hsign : (if n < 0 then -(n.natAbs : Int) else n.natAbs) = n := by
    split <;> omega
  have hinteger : readInteger? (Text.ofInt n ++ rest) = some (n, (Text.ofNat n.natAbs).length, rest) := by
    unfold readInteger?
    rw [readMinus_ofInt]
    dsimp only
    rw [readWhole?_ofNat _ hend]
    dsimp only
    rw [hend.readFraction_eq, hend.readExponent?_eq, Text.value_ofNat]
    simpa using hsign
  rw [readAtom?, hword, hinteger]
  exact if_pos hn

/-- An integer starts with a minus sign or with a digit. -/
theorem ofInt_front (n : Int) : ∃ c cs, Text.ofInt n = c :: cs ∧ (c = '-' ∨ isDigit c = true) := by
  cases n with
  | ofNat n =>
    obtain ⟨c, cs, heq, -, hdigits⟩ := ofNat_front n
    exact ⟨c, cs, heq, Or.inr (hdigits c List.mem_cons_self)⟩
  | negSucc n => exact ⟨'-', _, rfl, Or.inl rfl⟩

/-- **An integer is read up to what ends it.** -/
theorem reads_ofInt {n : Int} (hn : IsShort digits n) (hend : IsEnd rest) :
    Reads digits (Text.ofInt n ++ rest) (.value (.int n)) rest := by
  have hatom := readAtom?_ofInt hn hend
  obtain ⟨c, cs, heq, hc⟩ := ofInt_front n
  rw [heq] at hatom ⊢
  refine .atom ⟨?_, ?_, ?_⟩ hatom
  all_goals
    rintro rfl
    revert hc
    decide

/-! ## Values -/

/-- What can be read again as it has been written. -/
inductive Exact (digits : Option Nat) : Part → Prop
  | null : Exact digits (.value .null)
  | bool (b : Bool) : Exact digits (.value (.bool b))
  | int {n : Int} (short : IsShort digits n) : Exact digits (.value (.int n))
  | str (s : String) : Exact digits (.value (.str s))
  | list {vs : List Json} (items : Exact digits (.items vs)) : Exact digits (.value (.arr vs))
  | object {fields : List (String × Json)} (names : (fields.map Prod.fst).Nodup)
      (members : Exact digits (.members fields)) : Exact digits (.value (.obj fields))
  | noItems : Exact digits (.items [])
  | item {v : Json} {vs : List Json} (value : Exact digits (.value v)) (items : Exact digits (.items vs)) :
      Exact digits (.items (v :: vs))
  | noMembers : Exact digits (.members [])
  | member {key : String} {v : Json} {fields : List (String × Json)} (value : Exact digits (.value v))
      (members : Exact digits (.members fields)) : Exact digits (.members ((key, v) :: fields))

theorem Exact.items_of_forall {vs : List Json} (h : ∀ v ∈ vs, Exact digits (.value v)) :
    Exact digits (.items vs) := by
  induction vs with
  | nil => exact .noItems
  | cons v vs ih =>
    rw [List.forall_mem_cons] at h
    exact .item h.1 (ih h.2)

theorem Exact.members_of_forall {fields : List (String × Json)}
    (h : ∀ f ∈ fields, Exact digits (.value f.2)) : Exact digits (.members fields) := by
  induction fields with
  | nil => exact .noMembers
  | cons f fields ih =>
    rw [List.forall_mem_cons] at h
    exact .member h.1 (ih h.2)

theorem insertField_of_not_mem {key : String} {v : Json} {seen : List (String × Json)}
    (h : key ∉ seen.map Prod.fst) : insertField key v seen = seen ++ [(key, v)] := by
  induction seen with
  | nil => rfl
  | cons f seen ih =>
    rw [List.map_cons, List.mem_cons, not_or] at h
    rw [insertField, if_neg (Ne.symm h.1), ih h.2]
    rfl

/-- Members with different names keep their order. -/
theorem insertAll_eq_append {seen fields : List (String × Json)} (h : ((seen ++ fields).map Prod.fst).Nodup) :
    insertAll seen fields = seen ++ fields := by
  induction fields generalizing seen with
  | nil => rw [List.append_nil]; rfl
  | cons f fields ih =>
    have hf : f.1 ∉ seen.map Prod.fst := by
      rw [List.map_append, List.nodup_append] at h
      exact fun hmem => h.2.2 _ hmem _ List.mem_cons_self rfl
    show insertAll (insertField f.1 f.2 seen) fields = _
    rw [insertField_of_not_mem hf, ih (by simpa using h)]
    simp

/-! ## Layout -/

theorem skipBlanks_newline (level : Nat) (t : Text) : skipBlanks (newline level ++ t) = skipBlanks t := by
  refine List.dropWhile_append_of_pos fun c hc => ?_
  rcases List.mem_cons.mp hc with rfl | hc
  · rfl
  · rw [List.eq_of_mem_replicate hc]
    rfl

theorem isEnd_newline (level : Nat) (t : Text) : IsEnd (newline level ++ t) :=
  Or.inr ⟨by decide, by decide, by decide, by decide⟩

theorem isEnd_comma (t : Text) : IsEnd (',' :: t) := Or.inr ⟨by decide, by decide, by decide, by decide⟩

/-- A part can be read again where it has been written: a value in front of what ends a number, items and members
in front of the bracket or the brace that ends them. -/
def Part.ReadBack (digits : Option Nat) : Part → Prop
  | .value v => ∀ level rest, IsEnd rest → Reads digits (pretty level v ++ rest) (.value v) rest
  | .items vs => vs ≠ [] → ∀ outer level rest,
      Reads digits (prettyItems level vs ++ (newline outer ++ ']' :: rest)) (.items vs) rest
  | .members fields => fields ≠ [] → ∀ outer level rest,
      Reads digits (prettyFields level fields ++ (newline outer ++ '}' :: rest)) (.members fields) rest

/-- An item is followed by the bracket or by the next item on a line of its own. -/
theorem Part.ReadBack.item {v : Json} {vs : List Json} (hvalue : (Part.value v).ReadBack digits)
    (hitems : (Part.items vs).ReadBack digits) : (Part.items (v :: vs)).ReadBack digits := by
  intro _ outer level rest
  cases vs with
  | nil =>
    refine .lastItem (hvalue level _ (isEnd_newline outer _)) ?_
    rw [skipBlanks_newline]
    rfl
  | cons w vs =>
    have hnext := hitems (List.cons_ne_nil w vs) outer level rest
    have htext : prettyItems level (v :: w :: vs) ++ (newline outer ++ ']' :: rest)
        = pretty level v ++ ',' :: (newline level ++
          (prettyItems level (w :: vs) ++ (newline outer ++ ']' :: rest))) := by
      simp [prettyItems]
    rw [htext]
    refine .nextItem (hvalue level _ (isEnd_comma _)) rfl ?_
    rw [skipBlanks_newline, hnext.skipBlanks_eq]
    exact hnext

/-- A string is read up to its end, whatever stands behind it. -/
theorem readString_string (s : String) (rest : Text) :
    ∃ cs, string s ++ rest = '"' :: cs ∧ readString ('"' :: cs) [] cs = .ok (s.toList, rest) := by
  refine ⟨s.toList.flatMap escapeChar ++ '"' :: rest, ?_, readString_escaped ..⟩
  rw [string, List.append_assoc]
  rfl

/-- A blank in front of what can be read is skipped. -/
theorem Reads.skipBlanks_blank {t : Text} {p : Part} (h : Reads digits t p rest) : skipBlanks (' ' :: t) = t :=
  (show skipBlanks (' ' :: t) = skipBlanks t from rfl).trans h.skipBlanks_eq

theorem reads_lastMember {t r : Text} {v : Json} (key : String) (value : Reads digits t (.value v) r)
    (close : skipBlanks r = '}' :: rest) :
    Reads digits (string key ++ ':' :: ' ' :: t) (.members [(key, v)]) rest := by
  obtain ⟨cs, heq, hname⟩ := readString_string key (':' :: ' ' :: t)
  have hmember : Reads digits ('"' :: cs) (.members [(String.ofList key.toList, v)]) rest :=
    .lastMember hname rfl (value.skipBlanks_blank.symm ▸ value) close
  rwa [heq, ← String.ofList_toList (s := key)]

theorem reads_nextMember {t r r' : Text} {v : Json} {fields : List (String × Json)} (key : String)
    (value : Reads digits t (.value v) r) (comma : skipBlanks r = ',' :: r')
    (members : Reads digits (skipBlanks r') (.members fields) rest) :
    Reads digits (string key ++ ':' :: ' ' :: t) (.members ((key, v) :: fields)) rest := by
  obtain ⟨cs, heq, hname⟩ := readString_string key (':' :: ' ' :: t)
  have hmember : Reads digits ('"' :: cs) (.members ((String.ofList key.toList, v) :: fields)) rest :=
    .nextMember hname rfl (value.skipBlanks_blank.symm ▸ value) comma members
  rwa [heq, ← String.ofList_toList (s := key)]

/-- A member is a name, a colon and a value, followed by the brace or by the next member on a line of its own. -/
theorem Part.ReadBack.member {key : String} {v : Json} {fields : List (String × Json)}
    (hvalue : (Part.value v).ReadBack digits) (hmembers : (Part.members fields).ReadBack digits) :
    (Part.members ((key, v) :: fields)).ReadBack digits := by
  intro _ outer level rest
  cases fields with
  | nil =>
    rw [prettyFields, List.append_assoc, List.append_assoc]
    refine reads_lastMember key (hvalue level _ (isEnd_newline outer _)) ?_
    rw [skipBlanks_newline]
    rfl
  | cons f fields =>
    have hnext := hmembers (List.cons_ne_nil f fields) outer level rest
    have htext : prettyFields level ((key, v) :: f :: fields) ++ (newline outer ++ '}' :: rest)
        = string key ++ ':' :: ' ' :: (pretty level v ++ ',' :: (newline level ++
          (prettyFields level (f :: fields) ++ (newline outer ++ '}' :: rest)))) := by
      simp [prettyFields]
    rw [htext]
    refine reads_nextMember key (hvalue level _ (isEnd_comma _)) rfl ?_
    rw [skipBlanks_newline, hnext.skipBlanks_eq]
    exact hnext

/-- **What is exact can be read back.** -/
theorem Exact.readBack {p : Part} (h : Exact digits p) : p.ReadBack digits := by
  induction h with
  | null =>
    intro level rest _
    exact .atom ⟨by decide, by decide, by decide⟩ rfl
  | bool b =>
    intro level rest _
    cases b <;> exact .atom ⟨by decide, by decide, by decide⟩ rfl
  | int short =>
    intro level rest hend
    exact reads_ofInt short hend
  | str s =>
    intro level rest _
    obtain ⟨cs, heq, hread⟩ := readString_string s rest
    have hstring : Reads digits ('"' :: cs) (.value (.str (String.ofList s.toList))) rest := .string hread
    rw [pretty, heq]
    rwa [String.ofList_toList] at hstring
  | @list vs items ih =>
    intro level rest _
    cases vs with
    | nil => exact .emptyList rfl
    | cons v vs =>
      have hitems := ih (List.cons_ne_nil v vs) level (level + 1) rest
      have htext : pretty level (.arr (v :: vs)) ++ rest = '[' :: (newline (level + 1) ++
          (prettyItems (level + 1) (v :: vs) ++ (newline level ++ ']' :: rest))) := by
        simp [pretty]
      rw [htext]
      refine .list ?_
      rw [skipBlanks_newline, hitems.skipBlanks_eq]
      exact hitems
  | @object fields names members ih =>
    intro level rest _
    cases fields with
    | nil => exact .emptyObject rfl
    | cons f fields =>
      have hmembers := ih (List.cons_ne_nil f fields) level (level + 1) rest
      have htext : pretty level (.obj (f :: fields)) ++ rest = '{' :: (newline (level + 1) ++
          (prettyFields (level + 1) (f :: fields) ++ (newline level ++ '}' :: rest))) := by
        simp [pretty]
      have hobject : Reads digits ('{' :: (newline (level + 1) ++ (prettyFields (level + 1) (f :: fields) ++
          (newline level ++ '}' :: rest)))) (.value (.obj (insertAll [] (f :: fields)))) rest := by
        refine .object ?_
        rw [skipBlanks_newline, hmembers.skipBlanks_eq]
        exact hmembers
      rw [htext]
      rwa [insertAll_eq_append names] at hobject
  | noItems => exact fun h => absurd rfl h
  | item _ _ ihValue ihItems => exact ihValue.item ihItems
  | noMembers => exact fun h => absurd rfl h
  | member _ _ ihValue ihMembers => exact ihValue.member ihMembers

/-- **A value that is written over several lines is what the text holds.** -/
theorem isTextOf_pretty {v : Json} (h : Exact digits (.value v)) : IsTextOf digits (pretty 0 v) v := by
  have hreads := h.readBack 0 [] (Or.inl rfl)
  rw [List.append_nil] at hreads
  exact .of_reads hreads rfl

end PatchLint.Json
