import PatchLint.Generator.Reply
import PatchLint.Proofs.Json.Extension
import PatchLint.Proofs.Json.Levels

/-!
# Objects inside of other text

The search for the closing brace of an object stops at exactly its end, whatever strings and objects stand
inside of it and whatever follows it: it passes over balanced texts. So an object in a reply is read as if it
stood alone, if no brace stands in front of it and the reader can tell that the reply as a whole is no value.
It cannot where the text in front of the object opens more lists than it has levels.

* `balancedFrom?_balanced` — the search passes over a balanced text
* `balancedBraces?_around` — it finds the object in a text around it
* `loadObject?_around` — the value of the whole text is no other object
* `readReply_around` — the fix in a reply with text around its object
-/

namespace PatchLint

open Json (Quoted Balanced ExceedsLimit IsObjectText)

/-! ## The search for the closing brace -/

/-- The search goes on after a character that does not close the first brace. -/
theorem balancedFrom?_cons {s next : BraceState} {c : Char} (hstep : s.step c = next)
    (h : c = '}' → s.inString = false → next.depth ≠ 0) (seen cs : Text) :
    balancedFrom? s seen (c :: cs) = balancedFrom? next (c :: seen) cs := by
  rw [balancedFrom?, hstep, if_neg]
  simp only [Bool.and_eq_true, Bool.not_eq_true', decide_eq_true_eq]
  rintro ⟨⟨hc, houtside⟩, hdepth⟩
  exact h hc houtside hdepth

/-- The search passes over a string. -/
theorem balancedFrom?_quoted {depth : Nat} {seen s : Text} (h : Quoted s) (more : Text) :
    balancedFrom? ⟨depth, true, false⟩ seen (s ++ more)
      = balancedFrom? ⟨depth, false, false⟩ (s.reverse ++ seen) more := by
  induction h generalizing seen with
  | close => rfl
  | @plain c s hquote hslash _ ih =>
    have hstep : BraceState.step ⟨depth, true, false⟩ c = ⟨depth, true, false⟩ := by
      simp [BraceState.step, hquote, hslash]
    rw [List.cons_append, balancedFrom?_cons hstep (fun _ h => nomatch h), ih, List.reverse_cons,
      List.append_assoc, List.singleton_append]
  | @escape c s _ ih =>
    have hslash : BraceState.step ⟨depth, true, false⟩ '\\' = ⟨depth, true, true⟩ := rfl
    have hnext : BraceState.step ⟨depth, true, true⟩ c = ⟨depth, true, false⟩ := rfl
    rw [List.cons_append, List.cons_append, balancedFrom?_cons hslash (fun _ h => nomatch h),
      balancedFrom?_cons hnext (fun _ h => nomatch h), ih, List.reverse_cons, List.reverse_cons,
      List.append_assoc, List.append_assoc, List.singleton_append, List.singleton_append]

/-- The search passes over a balanced text, if it is inside of braces. -/
theorem balancedFrom?_balanced {depth : Nat} {seen u : Text} (h : Balanced u) (more : Text) :
    balancedFrom? ⟨depth + 1, false, false⟩ seen (u ++ more)
      = balancedFrom? ⟨depth + 1, false, false⟩ (u.reverse ++ seen) more := by
  -- one more brace than the text opens stays open, so no closing brace in it ends the search
  induction h generalizing depth seen more with
  | nil => rfl
  | @plain c u hc _ ih =>
    obtain ⟨hquote, hopen, hclose⟩ := hc
    have hstep : BraceState.step ⟨depth + 1, false, false⟩ c = ⟨depth + 1, false, false⟩ := by
      simp [BraceState.step, hquote, hopen, hclose]
    rw [List.cons_append, balancedFrom?_cons hstep (fun h => absurd h hclose), ih, List.reverse_cons,
      List.append_assoc, List.singleton_append]
  | @string s u hs _ ih =>
    have hstep : BraceState.step ⟨depth + 1, false, false⟩ '"' = ⟨depth + 1, true, false⟩ := rfl
    rw [List.cons_append, List.append_assoc, balancedFrom?_cons hstep (fun h => nomatch h),
      balancedFrom?_quoted hs, ih]
    simp only [List.reverse_cons, List.reverse_append, List.append_assoc, List.singleton_append]
  | @braces u w _ _ ihu ihw =>
    have hopen : BraceState.step ⟨depth + 1, false, false⟩ '{' = ⟨depth + 2, false, false⟩ := rfl
    have hclose : BraceState.step ⟨depth + 2, false, false⟩ '}' = ⟨depth + 1, false, false⟩ := rfl
    rw [List.cons_append, List.append_assoc, List.cons_append,
      balancedFrom?_cons hopen (fun h => nomatch h), ihu,
      balancedFrom?_cons hclose (fun _ _ => Nat.succ_ne_zero depth), ihw]
    simp only [List.reverse_cons, List.reverse_append, List.append_assoc, List.cons_append,
      List.nil_append]

/-- The text between the first balanced braces is the object that stands there. -/
theorem balancedBraces?_around {before u : Text} (hbefore : '{' ∉ before) (hu : Balanced u)
    (after : Text) :
    balancedBraces? (before ++ '{' :: (u ++ ['}']) ++ after) = some ('{' :: (u ++ ['}'])) := by
  have hfind : (before ++ '{' :: (u ++ ['}']) ++ after).dropWhile (· ≠ '{')
      = '{' :: (u ++ '}' :: after) := by
    rw [List.append_assoc, List.dropWhile_append_of_pos]
    · simp
    · intro c hc
      simp only [decide_eq_true_eq]
      rintro rfl
      exact hbefore hc
  have hopen : BraceState.step {} '{' = ⟨0 + 1, false, false⟩ := rfl
  unfold balancedBraces?
  rw [hfind]
  dsimp only
  rw [balancedFrom?_cons hopen (by decide), balancedFrom?_balanced hu, balancedFrom?]
  simp [BraceState.step]

/-! ## Trimming -/

theorem dropWhile_append_of_head {p : Char → Bool} {c : Char} {b : Text} (hc : b.head? = some c)
    (hpc : p c = false) (a : Text) : (a ++ b).dropWhile p = a.dropWhile p ++ b := by
  obtain ⟨cs, rfl⟩ := List.head?_eq_some_iff.mp hc
  rw [List.dropWhile_append]
  split
  · next hnil =>
    rw [List.isEmpty_iff.mp hnil, List.dropWhile_cons_of_neg (by rw [hpc]; decide), List.nil_append]
  · rfl

/-- Trimming stops at both ends of a text that has other characters there. -/
theorem trim_around {p : Char → Bool} {t : Text} {c d : Char} (hc : t.head? = some c) (hpc : p c = false)
    (hd : t.getLast? = some d) (hpd : p d = false) (before after : Text) :
    Text.trim p (before ++ (t ++ after))
      = Text.trimStart p before ++ (t ++ Text.trimEnd p after) := by
  have hfirst : (t ++ after).head? = some c := by rw [List.head?_append, hc, Option.some_or]
  have hlast : (t.reverse ++ (before.dropWhile p).reverse).head? = some d := by
    rw [List.head?_append, List.head?_reverse, hd, Option.some_or]
  unfold Text.trim Text.trimStart Text.trimEnd
  rw [dropWhile_append_of_head hfirst hpc, List.reverse_append, List.reverse_append,
    List.append_assoc, dropWhile_append_of_head hlast hpd]
  simp only [List.reverse_append, List.reverse_reverse, List.append_assoc]

theorem strip_sublist (t : Text) : (Text.strip t).Sublist t := by
  unfold Text.strip Text.trim Text.trimEnd
  refine List.Sublist.trans ?_ (List.dropWhile_sublist Text.isBlank)
  rw [← List.reverse_sublist, List.reverse_reverse]
  exact List.dropWhile_sublist Text.isBlank

/-! ## Texts that go too deep -/

/-- A text that goes too deep has more openings than its reader has levels. -/
theorem exceedsLimit_of_loadJson {limit : Option Nat} {t : Text}
    (h : loadJson limit t = .error .nesting) : ExceedsLimit limit t := by
  unfold loadJson at h
  split at h
  · cases h
  · next f hparse =>
    by_cases hf : f.cause.isNesting = true
    · exact Json.exceedsLimit_of_parseWithin hparse hf
    · rw [if_neg hf] at h
      cases h

/-- A text that opens more lists than its reader has levels for goes too deep. -/
theorem loadJson_brackets (n : Nat) (rest : Text) :
    loadJson (some n) (List.replicate (n + 1) '[' ++ rest) = .error .nesting := by
  rw [loadJson, Json.parseWithin_brackets]
  rfl

/-- A reply that opens more lists than its reader has levels for has no answer. -/
theorem firstObject_brackets (n : Nat) (rest : Text) :
    firstObject (some n) (List.replicate (n + 1) '[' ++ rest) = .error .nesting := by
  have hstrip : Text.strip (List.replicate (n + 1) '[' ++ rest)
      = List.replicate (n + 1) '[' ++ Text.trimEnd Text.isBlank rest := by
    have hlast : (List.replicate (n + 1) '[').getLast? = some '[' := by
      rw [List.getLast?_replicate, if_neg (Nat.succ_ne_zero n)]
    exact trim_around (p := Text.isBlank) (c := '[') rfl (by decide) hlast (by decide) [] rest
  unfold firstObject
  rw [hstrip]
  dsimp only
  rw [if_neg (by rw [List.replicate_succ]; exact Bool.false_ne_true), loadObject?,
    loadJson_brackets]

/-! ## Objects in replies -/

variable {limit : Option Nat} {before t after : Text} {fields : List (String × Json)}

/-- What the value of a whole text can be, where an object stands in it. -/
theorem loadObject?_around (h : IsObjectText limit t fields) (hbefore : '{' ∉ before) (after : Text) :
    loadObject? limit (before ++ (t ++ after)) = .ok none ∨
      loadObject? limit (before ++ (t ++ after)) = .ok (some fields) ∨
      (loadJson limit (before ++ (t ++ after)) = .error .nesting ∧
        loadObject? limit (before ++ (t ++ after)) = .error .nesting ∧ '[' ∈ before) := by
  cases hparse : Json.parseWithin limit (before ++ (t ++ after)) with
  | ok v =>
    have hload : loadObject? limit (before ++ (t ++ after)) = .ok (objectFields? v) := by
      simp only [loadObject?, loadJson, hparse]
    rw [hload]
    cases v with
    | obj found =>
      obtain rfl := Json.parseWithin_around_obj h hbefore hparse
      exact Or.inr (Or.inl rfl)
    | _ => exact Or.inl rfl
  | error f =>
    by_cases hf : f.cause.isNesting = true
    · refine Or.inr (Or.inr ⟨?_, ?_, Json.parseWithin_around_nesting h hbefore hparse hf⟩)
      · simp only [loadJson, hparse, if_pos hf]
      · simp only [loadObject?, loadJson, hparse, if_pos hf]
    · refine Or.inl ?_
      simp only [loadObject?, loadJson, hparse, if_neg hf]

theorem ne_nesting_of_loadObject? {found : Option (List (String × Json))}
    (h : loadObject? limit t = .ok found) : loadJson limit t ≠ .error .nesting := by
  intro hjson
  rw [loadObject?, hjson] at h
  cases h

theorem loadObject?_of_isObjectText (h : IsObjectText limit t fields) :
    loadObject? limit t = .ok (some fields) := by
  simp only [loadObject?, loadJson, h.value, objectFields?]

/-- The search in a text finds the object that stands in it. -/
theorem embeddedObject_around (h : IsObjectText limit t fields) (hbefore : '{' ∉ before) (after : Text) :
    embeddedObject limit (before ++ (t ++ after)) = .ok fields := by
  obtain ⟨u, hsplit, hu, -⟩ := h.exists_inner
  have hbraces : balancedBraces? (before ++ (t ++ after)) = some t := by
    rw [← List.append_assoc, hsplit]
    exact balancedBraces?_around hbefore hu after
  simp only [embeddedObject, hbraces, loadObject?_of_isObjectText h]

/-- An object in a reply is the object of the reply, unless the reply as a whole goes too deep. -/
theorem firstObject_around (h : IsObjectText limit t fields) (hbefore : '{' ∉ before) (after : Text) :
    (loadJson limit (Text.strip (before ++ (t ++ after))) ≠ .error .nesting ∧
      firstObject limit (before ++ (t ++ after)) = .ok fields) ∨
    (loadJson limit (Text.strip (before ++ (t ++ after))) = .error .nesting ∧
      firstObject limit (before ++ (t ++ after)) = .error .nesting ∧ '[' ∈ before) := by
  have hstrip : Text.strip (before ++ (t ++ after))
      = Text.trimStart Text.isBlank before ++ (t ++ Text.trimEnd Text.isBlank after) :=
    trim_around h.opening (by decide) h.closing (by decide) before after
  have hsub : ∀ c ∈ Text.trimStart Text.isBlank before, c ∈ before := fun c hc =>
    (List.dropWhile_sublist Text.isBlank).subset hc
  have hfront : '{' ∉ Text.trimStart Text.isBlank before := fun hc => hbefore (hsub _ hc)
  unfold firstObject
  rw [hstrip]
  generalize Text.trimStart Text.isBlank before = front at hsub hfront ⊢
  generalize Text.trimEnd Text.isBlank after = rest
  have hempty : ¬(front ++ (t ++ rest)).isEmpty = true := by
    obtain ⟨cs, rfl⟩ := List.head?_eq_some_iff.mp h.opening
    simp
  dsimp only
  rw [if_neg hempty]
  rcases loadObject?_around h hfront rest with hload | hload | ⟨hjson, hload, hbracket⟩
  · refine Or.inl ⟨ne_nesting_of_loadObject? hload, ?_⟩
    rw [hload]
    exact embeddedObject_around h hfront rest
  · refine Or.inl ⟨ne_nesting_of_loadObject? hload, ?_⟩
    rw [hload]
  · refine Or.inr ⟨hjson, ?_, hsub _ hbracket⟩
    rw [hload]

/-- **An object in a reply is read as if it stood alone**, whatever text stands around it, if no brace stands in
front of it. The reply is tried as a whole first: where that goes deeper than the reader, because lists are opened
in front of the object, there is no answer at all. -/
theorem readReply_around (h : IsObjectText limit t fields) (hbefore : '{' ∉ before) (after : Text) :
    (loadJson limit (Text.strip (before ++ (t ++ after))) ≠ .error .nesting →
      firstObject limit (before ++ (t ++ after)) = .ok fields ∧
      readReply limit (before ++ (t ++ after)) = readReply limit t) ∧
    (loadJson limit (Text.strip (before ++ (t ++ after))) = .error .nesting →
      firstObject limit (before ++ (t ++ after)) = .error .nesting ∧
      readReply limit (before ++ (t ++ after)) = .error .nesting ∧
      '[' ∈ before ∧ ExceedsLimit limit (before ++ (t ++ after))) := by
  have hbare : readReply limit t = fixOfFields fields := by
    have hnone : '{' ∉ ([] : Text) := List.not_mem_nil
    rcases firstObject_around h hnone [] with ⟨-, hfirst⟩ | ⟨-, -, hbracket⟩
    · rw [List.nil_append, List.append_nil] at hfirst
      rw [readReply, hfirst]
      rfl
    · cases hbracket
  rcases firstObject_around h hbefore after with ⟨hjson, hfirst⟩ | ⟨hjson, hfirst, hbracket⟩
  · refine ⟨fun _ => ⟨hfirst, ?_⟩, fun hdeep => absurd hdeep hjson⟩
    rw [hbare, readReply, hfirst]
    rfl
  · refine ⟨fun hne => absurd hjson hne, fun _ => ⟨hfirst, ?_, hbracket, ?_⟩⟩
    · rw [readReply, hfirst]
      rfl
    · exact (exceedsLimit_of_loadJson hjson).of_sublist (strip_sublist _)

/-- A fenced object behind a list, with braces and quotation marks inside of its strings. -/
theorem readReply_around_fence :
    let before : Text := "[1] See below.\n```json\n".toList
    let t : Text := "\x7b\"diff\": \"-\x7d\\\"a\\\\\", \"risks\": [\x7b\"b\": \x7b\x7d\x7d]\x7d".toList
    let after : Text := "\n```\n\x7b\x7d \x7d".toList
    IsObjectText (some 980) t
        [("diff", .str "-\x7d\"a\\"), ("risks", .arr [.obj [("b", .obj [])]])] ∧
      '{' ∉ before ∧
      loadJson (some 980) (Text.strip (before ++ (t ++ after))) ≠ .error .nesting ∧
      readReply (some 980) (before ++ (t ++ after)) = readReply (some 980) t := by
  intro before t after
  have hbefore : '{' ∉ before := by decide +revert
  have hfew : (before ++ (t ++ after)).countP Json.isOpening ≤ 980 := by decide +revert
  have hobject : IsObjectText (some 980) t
      [("diff", .str "-\x7d\"a\\"), ("risks", .arr [.obj [("b", .obj [])]])] := by
    refine ⟨by decide +revert, by decide +revert, ?_⟩
    simp [t, Json.parseWithin, Json.skipBlanks, Json.isBlank, Json.readValue, Json.readFields,
      Json.readItems, Json.readString, Json.readEscape, Json.simpleEscape?, Json.insertField]
  obtain ⟨hread, hnesting⟩ := readReply_around hobject hbefore after
  have hshallow : loadJson (some 980) (Text.strip (before ++ (t ++ after))) ≠ .error .nesting := by
    intro hdeep
    obtain ⟨-, -, -, n, hlimit, hcount⟩ := hnesting hdeep
    cases hlimit
    omega
  exact ⟨hobject, hbefore, hshallow, (hread hshallow).2⟩

/-- Too many brackets in front of an object keep it from being read. -/
theorem readReply_ne_of_brackets :
    IsObjectText (some 1000) ['{', '}'] [] ∧ '{' ∉ List.replicate 1001 '[' ∧
      firstObject (some 1000) (List.replicate 1001 '[' ++ (['{', '}'] ++ [])) = .error .nesting ∧
      readReply (some 1000) (List.replicate 1001 '[' ++ (['{', '}'] ++ []))
        ≠ readReply (some 1000) ['{', '}'] := by
  have hdeep := firstObject_brackets 1000 (['{', '}'] ++ [])
  have hbare : readReply (some 1000) ['{', '}'] = .ok ⟨[], "Fix applied", []⟩ := rfl
  have hbefore : '{' ∉ List.replicate 1001 '[' := fun h => nomatch List.eq_of_mem_replicate h
  refine ⟨⟨rfl, rfl, rfl⟩, hbefore, hdeep, ?_⟩
  rw [hbare, readReply, hdeep]
  nofun

end PatchLint
