import PatchLint.Diff.Document
import PatchLint.Proofs.Text.Pieces

/-!
# Documents and their texts

A text is found again from its document, and the entries of a document tell all about it: their texts
are the lines, and the document is ended unless one of them is open. Only the last entry can be open
(`OpenOnlyLast`), which decides where the end of a document shows in a patch.

* `toText_ofText` — the text of the document of a text
* `getLast?_eq_newline_iff` — a text ends with a newline if it has lines and the last one is ended
* `ofText_append` — the document of a text behind ended lines
* `ended_ofText` — a document is ended unless one of its entries is open
-/

namespace PatchLint.Document

/-! ## Texts -/

/-- **The text of a document of a text is that text.** -/
theorem toText_ofText (t : Text) : (ofText t).toText = t := by
  unfold ofText
  cases t with
  | nil => rfl
  | cons c cs =>
    rw [if_neg (by simp)]
    have hjoin := Text.joinWith_pieces '\n' (c :: cs)
    have hne := Text.pieces_ne_nil '\n' (c :: cs)
    generalize Text.pieces '\n' (c :: cs) = ps at hjoin hne
    simp only []
    split
    · next hlast =>
      obtain ⟨ls, rfl⟩ := List.getLast?_eq_some_iff.mp hlast
      rw [List.dropLast_concat]
      cases ls with
      | nil => simp [Text.joinWith] at hjoin
      | cons l ls =>
        rw [Text.joinWith_concat_nil _ (List.cons_ne_nil l ls)] at hjoin
        simp [toText, hjoin]
    · simp [toText, hne, hjoin]

/-- Different texts have different documents. -/
theorem ofText_injective {s t : Text} (h : ofText s = ofText t) : s = t := by
  rw [← toText_ofText s, h, toText_ofText]

/-- No line of a document holds a newline. -/
theorem newline_not_mem_lines {t l : Text} (h : l ∈ (ofText t).lines) : '\n' ∉ l := by
  unfold ofText at h
  split at h
  · cases h
  · simp only [] at h
    split at h
    · exact Text.not_mem_of_mem_pieces ((List.dropLast_sublist _).subset h)
    · exact Text.not_mem_of_mem_pieces h

/-- A document without lines counts as ended. -/
theorem ended_of_lines_eq_nil {t : Text} (h : (ofText t).lines = []) : (ofText t).ended = true := by
  unfold ofText at h ⊢
  split
  · rfl
  · next ht =>
    rw [if_neg ht] at h
    simp only [] at h ⊢
    split
    · rfl
    · next hlast =>
      rw [if_neg hlast] at h
      exact absurd h (Text.pieces_ne_nil '\n' t)

/-- The lines of a text are its pieces, except for an empty one at the end. -/
theorem lines_prefix_pieces (t : Text) : (ofText t).lines <+: Text.pieces '\n' t := by
  unfold ofText
  split
  · exact List.nil_prefix
  · dsimp only
    split
    · exact List.dropLast_prefix _
    · exact List.prefix_rfl

/-- **The pieces of a text are its lines,** with an empty one behind the last end. -/
theorem pieces_eq_lines (t : Text) :
    Text.pieces '\n' t = (ofText t).lines ++ if (ofText t).ended then [[]] else [] := by
  unfold ofText
  split
  · next ht =>
    rw [List.isEmpty_iff.mp ht]
    rfl
  · dsimp only
    split
    · next hlast =>
      obtain ⟨ls, hpieces⟩ := List.getLast?_eq_some_iff.mp hlast
      rw [if_pos rfl, hpieces, List.dropLast_concat]
    · exact (List.append_nil _).symm

/-- The text of a document is its lines joined, with an empty one behind the last end. -/
theorem toText_eq_joinWith (d : Document) :
    d.toText = Text.joinWith ['\n'] (d.lines ++ if d.ended then [[]] else []) := by
  obtain ⟨lines, ended⟩ := d
  by_cases hlines : lines = []
  · subst hlines
    cases ended with
    | true => rfl
    | false => rfl
  · rw [toText, if_neg (by simpa using hlines)]
    cases ended with
    | true => exact (Text.joinWith_concat_nil ['\n'] hlines).symm
    | false => simp only [Bool.false_eq_true, if_false, List.append_nil]

/-! ## Texts of lines -/

/-- Lines in front of others are ended. -/
theorem toText_append (front : List Text) {rest : List Text} (ended : Bool) (h : rest ≠ []) :
    toText ⟨front ++ rest, ended⟩ = front.flatMap (· ++ ['\n']) ++ toText ⟨rest, ended⟩ := by
  induction front with
  | nil => rfl
  | cons l front ih =>
    obtain ⟨m, ms, hm⟩ := List.exists_cons_of_ne_nil (List.append_ne_nil_of_right_ne_nil front h)
    rw [hm] at ih
    rw [List.cons_append, hm, List.flatMap_cons, List.append_assoc, ← ih]
    simp [toText, Text.joinWith]

theorem toText_ended (ls : List Text) : toText ⟨ls, true⟩ = ls.flatMap (· ++ ['\n']) := by
  rcases List.eq_nil_or_concat ls with rfl | ⟨front, l, rfl⟩
  · rfl
  · rw [List.concat_eq_append, toText_append front true (List.cons_ne_nil l []), List.flatMap_append]
    simp [toText, Text.joinWith]

/-- The text of some lines has these lines, except for an empty one at the end if they are not
ended. -/
theorem lines_ofText_toText_sublist {ls : List Text} (ended : Bool) (h : ∀ l ∈ ls, '\n' ∉ l) :
    (ofText (toText ⟨ls, ended⟩)).lines.Sublist ls := by
  by_cases hls : ls = []
  · subst hls
    exact List.Sublist.refl []
  cases ended with
  | true =>
    unfold ofText
    rw [toText_ended, Text.pieces_flatMap_ended ls h]
    split
    · exact List.nil_sublist ls
    · simp
  | false =>
    have htext : toText ⟨ls, false⟩ = Text.joinWith ['\n'] ls := by simp [toText, hls]
    have hprefix := (lines_prefix_pieces (toText ⟨ls, false⟩)).sublist
    rwa [htext, Text.pieces_joinWith hls h, ← htext] at hprefix

/-! ## The last character -/

/-- A text of lines ends with a newline if its last line is ended or, behind other lines, empty. -/
theorem getLast?_toText_concat (front : List Text) {l : Text} (ended : Bool) (hl : '\n' ∉ l) :
    (toText ⟨front ++ [l], ended⟩).getLast? = some '\n' ↔
      ended = true ∨ (l = [] ∧ front ≠ []) := by
  rw [toText_append front ended (List.cons_ne_nil l [])]
  have hlast : toText ⟨[l], ended⟩ = l ++ if ended then ['\n'] else [] := by
    simp [toText, Text.joinWith]
  rw [hlast]
  cases ended with
  | true => simp
  | false =>
    rcases List.eq_nil_or_concat l with rfl | ⟨l, c, rfl⟩
    · rcases List.eq_nil_or_concat front with rfl | ⟨front, m, rfl⟩
      · simp
      · simp
    · rw [List.concat_eq_append, List.mem_append, not_or, List.mem_singleton] at hl
      simp [Ne.symm hl.2]

theorem ofText_of_ne_nil {t : Text} (ht : t ≠ []) :
    ofText t = if (Text.pieces '\n' t).getLast? = some [] then ⟨(Text.pieces '\n' t).dropLast, true⟩
      else ⟨Text.pieces '\n' t, false⟩ := by
  rw [ofText, if_neg (by simpa using ht)]

/-- A text with an empty last line is ended. -/
theorem ended_of_lines_eq_concat_nil {t : Text} {front : List Text}
    (h : (ofText t).lines = front ++ [[]]) : (ofText t).ended = true := by
  by_cases ht : t = []
  · subst ht
    rfl
  rw [ofText_of_ne_nil ht] at h ⊢
  split at h
  · next hlast => rw [if_pos hlast]
  · next hlast =>
    -- the pieces are the lines, and so the last one is empty
    have hpieces : Text.pieces '\n' t = front ++ [[]] := h
    rw [hpieces, List.getLast?_concat] at hlast
    exact absurd rfl hlast

/-- **A text ends with a newline if it has lines and the last one is ended.** -/
theorem getLast?_eq_newline_iff {t : Text} :
    t.getLast? = some '\n' ↔ (ofText t).lines ≠ [] ∧ (ofText t).ended = true := by
  have ht := toText_ofText t
  rcases List.eq_nil_or_concat (ofText t).lines with hnil | ⟨front, l, hlines⟩
  · have ht' : t = [] := by rw [← ht, toText, hnil]; rfl
    simp [ht', ofText]
  · rw [List.concat_eq_append] at hlines
    have hl : '\n' ∉ l := newline_not_mem_lines (by rw [hlines]; simp)
    have htext : t = toText ⟨front ++ [l], (ofText t).ended⟩ := by rw [← hlines, ht]
    have hend := getLast?_toText_concat front (ofText t).ended hl
    rw [← htext] at hend
    rw [hend, hlines]
    constructor
    · rintro (hended | ⟨rfl, -⟩)
      · exact ⟨by simp, hended⟩
      · exact ⟨by simp, ended_of_lines_eq_concat_nil hlines⟩
    · exact fun h => Or.inl h.2

/-! ## Lines in front -/

/-- A text of ended lines is its lines with their newlines. -/
theorem eq_flatMap_lines {front : Text} (h : front = [] ∨ front.getLast? = some '\n') :
    front = (ofText front).lines.flatMap (· ++ ['\n']) := by
  have hended : (ofText front).ended = true := by
    rcases h with rfl | h
    · rfl
    · exact (getLast?_eq_newline_iff.mp h).2
  conv => lhs; rw [← toText_ofText front]
  rw [← toText_ended, ← hended]

/-- **The document of a text behind ended lines.** -/
theorem ofText_append {front t : Text} (h : front = [] ∨ front.getLast? = some '\n') (ht : t ≠ []) :
    ofText (front ++ t) = ⟨(ofText front).lines ++ (ofText t).lines, (ofText t).ended⟩ := by
  have hpieces : Text.pieces '\n' (front ++ t) = (ofText front).lines ++ Text.pieces '\n' t := by
    conv => lhs; rw [eq_flatMap_lines h]
    exact Text.pieces_flatMap_append _ t fun l hl => newline_not_mem_lines hl
  have hne := Text.pieces_ne_nil '\n' t
  rw [ofText_of_ne_nil (List.append_ne_nil_of_right_ne_nil front ht), ofText_of_ne_nil ht, hpieces,
    List.getLast?_append, List.dropLast_append_of_ne_nil hne]
  obtain ⟨ps, p, hps⟩ := (List.eq_nil_or_concat _).resolve_left hne
  rw [hps, List.concat_eq_append, List.getLast?_concat, Option.some_or]
  split <;> rfl

/-- The text of lines behind a text of ended lines. -/
theorem toText_lines_append {front : Text} {rest : List Text} (ended : Bool)
    (h : front = [] ∨ front.getLast? = some '\n') (hrest : rest ≠ []) :
    toText ⟨(ofText front).lines ++ rest, ended⟩ = front ++ toText ⟨rest, ended⟩ := by
  rw [toText_append _ ended hrest, ← eq_flatMap_lines h]

/-! ## Open entries -/

/-- Whether some entry is not ended. -/
def isOpen (es : List Entry) : Bool := es.any (!·.ended)

@[simp] theorem isOpen_nil : isOpen [] = false := rfl

@[simp] theorem isOpen_cons (e : Entry) (es : List Entry) :
    isOpen (e :: es) = (!e.ended || isOpen es) := rfl

@[simp] theorem isOpen_append (es fs : List Entry) : isOpen (es ++ fs) = (isOpen es || isOpen fs) :=
  List.any_append

/-- Only the last entry may be open. -/
def OpenOnlyLast (es : List Entry) : Prop :=
  ∀ front back, es = front ++ back → back ≠ [] → isOpen front = false

theorem OpenOnlyLast.front {front back : List Entry} (h : OpenOnlyLast (front ++ back))
    (hb : back ≠ []) : isOpen front = false := h front back rfl hb

theorem OpenOnlyLast.back {front back : List Entry} (h : OpenOnlyLast (front ++ back)) :
    OpenOnlyLast back := by
  intro f b he hb
  have hf := h (front ++ f) b (by rw [he, List.append_assoc]) hb
  rw [isOpen_append, Bool.or_eq_false_iff] at hf
  exact hf.2

theorem entriesOf_openOnlyLast (ended : Bool) (ls : List Text) :
    OpenOnlyLast (entriesOf ended ls) := by
  fun_induction entriesOf ended ls with
  | case1 =>
    intro front back he hb
    exact absurd (List.append_eq_nil_iff.mp he.symm).2 hb
  | case2 l =>
    intro front back he hb
    cases front with
    | nil => rfl
    | cons e front =>
      have he' := (List.cons.inj he).2
      exact absurd (List.append_eq_nil_iff.mp he'.symm).2 hb
  | case3 l m rest ih =>
    intro front back he hb
    cases front with
    | nil => rfl
    | cons e front =>
      obtain ⟨rfl, htail⟩ := List.cons.inj he
      exact ih front back htail hb

theorem entries_openOnlyLast (d : Document) : OpenOnlyLast d.entries :=
  entriesOf_openOnlyLast d.ended d.lines

theorem isOpen_entriesOf (ended : Bool) (ls : List Text) (h : ls ≠ []) :
    isOpen (entriesOf ended ls) = !ended := by
  fun_induction entriesOf ended ls with
  | case1 => exact absurd rfl h
  | case2 l => simp
  | case3 l m rest ih => simpa using ih (List.cons_ne_nil m rest)

/-- **The document of a text is ended unless one of its entries is open.** -/
theorem ended_ofText (t : Text) : (ofText t).ended = !isOpen (ofText t).entries := by
  by_cases h : (ofText t).lines = []
  · rw [ended_of_lines_eq_nil h, entries, h]
    rfl
  · rw [entries, isOpen_entriesOf _ _ h, Bool.not_not]

/-- The entries of a text tell the text. -/
theorem ofText_eq_of_entries {s t : Text} (h : (ofText s).entries = (ofText t).entries) :
    ofText s = ofText t := by
  have hlines : (ofText s).lines = (ofText t).lines := by
    rw [← map_text_entries, h, map_text_entries]
  have hended : (ofText s).ended = (ofText t).ended := by
    rw [ended_ofText, h, ← ended_ofText]
  cases hs : ofText s
  cases ht : ofText t
  rw [hs, ht] at hlines hended
  simp_all

theorem newline_not_mem_entries {t : Text} {e : Entry} (h : e ∈ (ofText t).entries) :
    '\n' ∉ e.text := by
  refine newline_not_mem_lines (t := t) ?_
  rw [← map_text_entries]
  exact List.mem_map_of_mem h

end PatchLint.Document
