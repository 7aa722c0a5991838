import PatchLint.Diff.Patch
import PatchLint.Proofs.Text.Pieces

/-!
# Reading back a patch

Writing a patch and reading it again gives the same hunks (`read?_render`), and the names without the
blanks around them. A hunk has to hold what its header announces (`Hunk.WellFormed`); the text of its
lines is free, and so is the spelling of its header (`Hunk.HeaderSpelled`). Only the length of its
numbers is bounded (`overlongNumber?_eq_none_iff`).

## Two stages

* **The header.** A range is read up to the blank behind it, with or without a count.
* **The lines.** While a line of a hunk is read, the hunk is owed that line. So no line is taken for a
  file name, although a removed line may well start with `---`.
-/

namespace PatchLint

/-! ## Numbers -/

theorem Text.isDigit_of_mem_ofNat {n : Nat} {c : Char} (h : c ∈ Text.ofNat n) :
    Text.isDigit c = true := by
  have hdigit {d : Nat} (hd : d < 10) : Text.isDigit (Text.digitChar d) = true := by
    rw [Text.isDigit, Text.digitValue?_digitChar hd]
    rfl
  fun_induction Text.ofNat n with
  | case1 n hn =>
    rw [List.mem_singleton.mp h]
    exact hdigit hn
  | case2 n hn ih =>
    rcases List.mem_append.mp h with h | h
    · exact ih h
    · rw [List.mem_singleton.mp h]
      exact hdigit (Nat.mod_lt n (by omega))

theorem Text.ofNat_ne_nil (n : Nat) : Text.ofNat n ≠ [] := by
  rw [Text.ofNat]
  split <;> simp

theorem Text.newline_not_mem_ofNat (n : Nat) : '\n' ∉ Text.ofNat n := by
  intro h
  exact absurd (Text.isDigit_of_mem_ofNat h) (by decide)

/-- A written number is read up to a character that is no digit. -/
theorem takeWhile_ofNat_append (n : Nat) {c : Char} (hc : Text.isDigit c = false) (rest : Text) :
    (Text.ofNat n ++ c :: rest).takeWhile Text.isDigit = Text.ofNat n := by
  rw [List.takeWhile_append_of_pos fun _ h => Text.isDigit_of_mem_ofNat h,
    List.takeWhile_cons_of_neg (by simp [hc]), List.append_nil]

theorem dropWhile_ofNat_append (n : Nat) {c : Char} (hc : Text.isDigit c = false) (rest : Text) :
    (Text.ofNat n ++ c :: rest).dropWhile Text.isDigit = c :: rest := by
  rw [List.dropWhile_append_of_pos fun _ h => Text.isDigit_of_mem_ofNat h,
    List.dropWhile_cons_of_neg (by simp [hc])]

/-! ## Headers -/

theorem expect?_append (needle t : Text) : expect? needle (needle ++ t) = some t := by
  rw [expect?, if_pos (List.isPrefixOf_iff_prefix.mpr (List.prefix_append needle t)),
    List.drop_left]

/-- The digits of a count. A count of one may have none. -/
def CountSpelled (count : Nat) (digits : Text) : Prop :=
  digits = Text.ofNat count ∨ count = 1 ∧ digits = []

theorem CountSpelled.count_eq {count : Nat} {digits : Text} (h : CountSpelled count digits) :
    HeaderDigits.count digits = count := by
  rcases h with rfl | ⟨rfl, rfl⟩
  · rw [HeaderDigits.count, if_neg (by simp [Text.ofNat_ne_nil]), Text.value_ofNat]
  · rfl

/-- A count that is left out is short, and so is the one that it stands for. -/
theorem CountSpelled.digitLimit_lt_iff {count : Nat} {digits : Text} (h : CountSpelled count digits) :
    Text.digitLimit < digits.length ↔ Text.digitLimit < (Text.ofNat count).length := by
  rcases h with rfl | ⟨rfl, rfl⟩
  · rfl
  · refine iff_of_false (Nat.not_lt_zero _) ?_
    rw [Nat.not_lt, Text.length_ofNat_le_iff (by decide)]
    exact Text.one_lt_powerOfTen (by decide)

/-- A range without a count. -/
theorem splitRange?_start (start : Nat) (rest : Text) :
    splitRange? (Text.ofNat start ++ ' ' :: rest) = some (Text.ofNat start, [], ' ' :: rest) := by
  have hb : Text.isDigit ' ' = false := by decide
  simp only [splitRange?, takeWhile_ofNat_append start hb, dropWhile_ofNat_append start hb,
    List.isEmpty_iff, Text.ofNat_ne_nil, if_false]
  have he : expect? [','] (' ' :: rest) = none := rfl
  simp [he, hb]

/-- A range with a count. -/
theorem splitRange?_start_count (start count : Nat) (rest : Text) :
    splitRange? (Text.ofNat start ++ ',' :: (Text.ofNat count ++ ' ' :: rest))
      = some (Text.ofNat start, Text.ofNat count, ' ' :: rest) := by
  have hb : Text.isDigit ' ' = false := by decide
  have hc : Text.isDigit ',' = false := by decide
  have he := expect?_append [','] (Text.ofNat count ++ ' ' :: rest)
  rw [List.singleton_append] at he
  simp only [splitRange?, takeWhile_ofNat_append start hc, dropWhile_ofNat_append start hc, he,
    Option.getD_some, takeWhile_ofNat_append count hb, dropWhile_ofNat_append count hb,
    List.isEmpty_iff, Text.ofNat_ne_nil, if_false]

/-- The spellings of a range. A count of one may be left out. -/
inductive RangeSpelled (start : Nat) : Nat → Text → Prop where
  | full (count : Nat) : RangeSpelled start count (Text.ofNat start ++ ',' :: Text.ofNat count)
  | short : RangeSpelled start 1 (Text.ofNat start)

theorem rangeSpelled_rangeText (start count : Nat) :
    RangeSpelled start count (rangeText start count) := by
  unfold rangeText
  split
  · next h =>
    subst h
    exact .short
  · exact .full count

/-- A range is taken apart into the digits of its numbers. -/
theorem RangeSpelled.exists_digits {start count : Nat} {t : Text} (h : RangeSpelled start count t) :
    ∃ digits, CountSpelled count digits ∧
      ∀ rest, splitRange? (t ++ ' ' :: rest) = some (Text.ofNat start, digits, ' ' :: rest) := by
  cases h with
  | full =>
    refine ⟨Text.ofNat count, Or.inl rfl, fun rest => ?_⟩
    rw [List.append_assoc, List.cons_append, splitRange?_start_count]
  | short => exact ⟨[], Or.inr ⟨rfl, rfl⟩, splitRange?_start start⟩

theorem RangeSpelled.newline_not_mem {start count : Nat} {t : Text}
    (h : RangeSpelled start count t) : '\n' ∉ t := by
  cases h with
  | full => simp [Text.newline_not_mem_ofNat]
  | short => exact Text.newline_not_mem_ofNat start

/-- The digits of the header that two written ranges make up. -/
theorem read?_ranges {old new oldStart oldCount newStart newCount : Text}
    (hold : ∀ rest, splitRange? (old ++ ' ' :: rest) = some (oldStart, oldCount, ' ' :: rest))
    (hnew : ∀ rest, splitRange? (new ++ ' ' :: rest) = some (newStart, newCount, ' ' :: rest)) :
    HeaderDigits.read? ("@@ -".toList ++ old ++ " +".toList ++ new ++ " @@".toList)
      = some ⟨oldStart, oldCount, newStart, newCount⟩ := by
  have ho (t : Text) : splitRange? (old ++ (" +".toList ++ t))
      = some (oldStart, oldCount, " +".toList ++ t) := hold ('+' :: t)
  have hn : splitRange? (new ++ " @@".toList) = some (newStart, newCount, " @@".toList ++ []) :=
    hnew ['@', '@']
  simp only [HeaderDigits.read?, List.append_assoc, expect?_append, Option.bind_eq_bind,
    Option.bind_some, ho, hn]
  rfl

/-- The spellings of the header of a hunk. -/
inductive Hunk.HeaderSpelled (h : Hunk) : Text → Prop where
  | ranges {old new : Text} (hold : RangeSpelled h.oldStart h.oldCount old)
      (hnew : RangeSpelled h.newStart h.newCount new) :
      h.HeaderSpelled ("@@ -".toList ++ old ++ " +".toList ++ new ++ " @@".toList)

theorem Hunk.headerSpelled_header (h : Hunk) : h.HeaderSpelled h.header :=
  .ranges (rangeSpelled_rangeText h.oldStart h.oldCount)
    (rangeSpelled_rangeText h.newStart h.newCount)

/-- The numbers of a hunk. -/
def Hunk.numbers (h : Hunk) : List Nat := [h.oldStart, h.oldCount, h.newStart, h.newCount]

namespace Hunk.HeaderSpelled

variable {h : Hunk} {header : Text}

/-- The digits of a header are those of its numbers. -/
theorem exists_digits (hs : h.HeaderSpelled header) :
    ∃ oldDigits newDigits, CountSpelled h.oldCount oldDigits ∧ CountSpelled h.newCount newDigits ∧
      HeaderDigits.read? header
        = some ⟨Text.ofNat h.oldStart, oldDigits, Text.ofNat h.newStart, newDigits⟩ := by
  cases hs with
  | ranges hold hnew =>
    obtain ⟨oldDigits, hcount, hold⟩ := hold.exists_digits
    obtain ⟨newDigits, hcount', hnew⟩ := hnew.exists_digits
    exact ⟨oldDigits, newDigits, hcount, hcount', read?_ranges hold hnew⟩

/-- **A header is read as it was written,** however it is spelled. -/
theorem readHeader?_eq (hs : h.HeaderSpelled header) :
    Hunk.readHeader? header = some { h with lines := [] } := by
  obtain ⟨oldDigits, newDigits, hold, hnew, hread⟩ := hs.exists_digits
  rw [Hunk.readHeader?, hread, Option.map_some, HeaderDigits.hunk, Text.value_ofNat, Text.value_ofNat,
    hold.count_eq, hnew.count_eq]

/-- **A number on a header is too long exactly if a number of the hunk is.** -/
theorem overlongOnLine?_eq_none_iff (hs : h.HeaderSpelled header) :
    overlongOnLine? header = none ↔ ∀ n ∈ h.numbers, n < Text.powerOfTen Text.digitLimit := by
  obtain ⟨oldDigits, newDigits, hold, hnew, hread⟩ := hs.exists_digits
  have hshort (n : Nat) : n < Text.powerOfTen Text.digitLimit ↔ ¬Text.digitLimit < (Text.ofNat n).length := by
    rw [Nat.not_lt, Text.length_ofNat_le_iff (by decide)]
  simp only [overlongOnLine?, hread, Option.bind_some, HeaderDigits.overlong?, HeaderDigits.numbers,
    Option.map_eq_none_iff, List.find?_eq_none, decide_eq_true_eq, List.forall_mem_cons, Hunk.numbers,
    hshort, hold.digitLimit_lt_iff, hnew.digitLimit_lt_iff, List.not_mem_nil, false_implies, implies_true]

theorem startsWith_mark (hs : h.HeaderSpelled header) :
    Text.startsWith header "@@".toList = true := by
  cases hs with
  | ranges hold hnew => rfl

theorem newline_not_mem (hs : h.HeaderSpelled header) : '\n' ∉ header := by
  cases hs with
  | @ranges old new hold hnew =>
    show '\n' ∉ "@@ -".toList ++ old ++ " +".toList ++ new ++ " @@".toList
    simp [hold.newline_not_mem, hnew.newline_not_mem]

end Hunk.HeaderSpelled

/-! ## Well-formed hunks -/

/-- The number of old lines that body lines account for. -/
def oldTotal : List Text → Nat
  | [] => 0
  | l :: ls => (Tag.of l).oldCount + oldTotal ls

/-- The number of new lines that body lines account for. -/
def newTotal : List Text → Nat
  | [] => 0
  | l :: ls => (Tag.of l).newCount + newTotal ls

@[simp] theorem oldTotal_nil : oldTotal [] = 0 := rfl

@[simp] theorem newTotal_nil : newTotal [] = 0 := rfl

@[simp] theorem oldTotal_cons (l : Text) (ls : List Text) :
    oldTotal (l :: ls) = (Tag.of l).oldCount + oldTotal ls := rfl

@[simp] theorem newTotal_cons (l : Text) (ls : List Text) :
    newTotal (l :: ls) = (Tag.of l).newCount + newTotal ls := rfl

@[simp] theorem oldTotal_append (ls ms : List Text) :
    oldTotal (ls ++ ms) = oldTotal ls + oldTotal ms := by
  induction ls with
  | nil => simp
  | cons l ls ih => rw [List.cons_append, oldTotal_cons, ih, oldTotal_cons, Nat.add_assoc]

@[simp] theorem newTotal_append (ls ms : List Text) :
    newTotal (ls ++ ms) = newTotal ls + newTotal ms := by
  induction ls with
  | nil => simp
  | cons l ls ih => rw [List.cons_append, newTotal_cons, ih, newTotal_cons, Nat.add_assoc]

/-- A hunk that holds what its header announces. -/
structure Hunk.WellFormed (h : Hunk) : Prop where
  known : ∀ l ∈ h.lines, Tag.of l ≠ .unknown
  oneLine : ∀ l ∈ h.lines, '\n' ∉ l
  oldCount : h.oldCount = oldTotal h.lines
  newCount : h.newCount = newTotal h.lines

/-- A line of known role that is no marker accounts for an old or a new line. -/
theorem Tag.counts_of_known {t : Tag} (hu : t ≠ .unknown) (hm : t ≠ .marker) :
    0 < t.oldCount + t.newCount := by
  cases t with
  | removed => decide
  | added => decide
  | context => decide
  | marker => exact absurd rfl hm
  | unknown => exact absurd rfl hu

theorem bodyFrom_totals (ls : List Text) (h : ∀ l ∈ ls, Tag.of l ≠ .unknown) :
    bodyFrom (oldTotal ls) (newTotal ls) ls = ls := by
  induction ls with
  | nil => rfl
  | cons l ls ih =>
    have hrest := ih fun l' hl' => h l' (List.mem_cons_of_mem _ hl')
    rw [bodyFrom, oldTotal_cons, newTotal_cons]
    by_cases hm : Tag.of l = .marker
    · -- a marker is kept also when nothing is owed any more
      have hcounts : (Tag.of l).oldCount = 0 ∧ (Tag.of l).newCount = 0 := by
        rw [hm]
        exact ⟨rfl, rfl⟩
      rw [hcounts.1, hcounts.2, if_pos hm, Nat.zero_add, Nat.zero_add, Nat.sub_zero, Nat.sub_zero,
        hrest, ite_self]
    · have hpos := Tag.counts_of_known (h l List.mem_cons_self) hm
      rw [if_neg (by omega), Nat.add_sub_cancel_left, Nat.add_sub_cancel_left, hrest]

/-- **The body of a well-formed hunk is all of its lines.** -/
theorem Hunk.WellFormed.body_eq {h : Hunk} (hw : h.WellFormed) : h.body = h.lines := by
  rw [Hunk.body, hw.oldCount, hw.newCount, bodyFrom_totals h.lines hw.known]

/-! ## Reading lines -/

namespace PatchReader

/-- A text that starts with a given character. -/
theorem exists_of_startsWith {c : Char} {cs l : Text} (h : Text.startsWith l (c :: cs) = true) :
    ∃ l', l = c :: l' := by
  obtain ⟨l', rfl⟩ := List.isPrefixOf_iff_prefix.mp h
  exact ⟨cs ++ l', rfl⟩

/-- **A line that the open hunk is owed goes to it.** It is neither a header nor a file name. -/
theorem step_of_owed {r : PatchReader} {h : Hunk} {l : Text} (hcur : r.current = some h)
    (hknown : Tag.of l ≠ .unknown) (hold : (Tag.of l).oldCount ≤ r.oldOwed)
    (hnew : (Tag.of l).newCount ≤ r.newOwed) : r.step l = r.addLine l := by
  have hname : r.nameAllowed = (r.oldOwed == 0 && r.newOwed == 0) := by
    simp [nameAllowed, hcur]
  unfold step
  rw [if_neg, if_neg, if_neg]
  · -- a line that starts with a plus sign is owed as a new one
    intro hc
    rw [Bool.and_eq_true, hname, Bool.and_eq_true, beq_iff_eq, beq_iff_eq] at hc
    obtain ⟨l', rfl⟩ := exists_of_startsWith hc.2
    have : 1 ≤ r.newOwed := hnew
    omega
  · -- and one that starts with a minus sign as an old one
    intro hc
    rw [Bool.and_eq_true, hname, Bool.and_eq_true, beq_iff_eq, beq_iff_eq] at hc
    obtain ⟨l', rfl⟩ := exists_of_startsWith hc.2
    have : 1 ≤ r.oldOwed := hold
    omega
  · intro hc
    obtain ⟨l', rfl⟩ := exists_of_startsWith hc
    exact hknown rfl

/-- The open hunk takes in the lines it is owed. -/
theorem foldl_step_lines (ls : List Text) :
    ∀ (r : PatchReader) (h : Hunk), r.current = some h → (∀ l ∈ ls, Tag.of l ≠ .unknown) →
    r.oldOwed = oldTotal ls → r.newOwed = newTotal ls →
    ls.foldl step r
      = { r with current := some { h with lines := h.lines ++ ls }, oldOwed := 0, newOwed := 0 } := by
  induction ls with
  | nil =>
    intro r h hcur _ hold hnew
    obtain ⟨oldName, newName, closed, current, oldOwed, newOwed, ignored⟩ := r
    obtain rfl : current = some h := hcur
    obtain rfl : oldOwed = 0 := hold
    obtain rfl : newOwed = 0 := hnew
    rw [List.foldl_nil, List.append_nil]
  | cons l ls ih =>
    intro r h hcur hknown hold hnew
    rw [oldTotal_cons] at hold
    rw [newTotal_cons] at hnew
    rw [List.foldl_cons, step_of_owed hcur (hknown l List.mem_cons_self) (by omega) (by omega)]
    have hadd : r.addLine l
        = { r with
            current := some { h with lines := h.lines ++ [l] }
            oldOwed := r.oldOwed - (Tag.of l).oldCount
            newOwed := r.newOwed - (Tag.of l).newCount } := by
      simp only [addLine, hcur]
    rw [hadd, ih _ { h with lines := h.lines ++ [l] } rfl
      (fun l' hl' => hknown l' (List.mem_cons_of_mem _ hl'))
      (by simp only []; omega) (by simp only []; omega)]
    simp

/-- **A hunk is read whole,** under any spelling of its header. -/
theorem foldl_step_hunk {h : Hunk} (hw : h.WellFormed) {header : Text}
    (hmark : Text.startsWith header "@@".toList = true)
    (hread : Hunk.readHeader? header = some { h with lines := [] }) (r : PatchReader) :
    (header :: h.lines).foldl step r
      = { r with closed := r.hunks, current := some h, oldOwed := 0, newOwed := 0 } := by
  rw [List.foldl_cons, step, if_pos hmark, openHunk, hread]
  simp only []
  rw [foldl_step_lines h.lines _ { h with lines := [] } rfl hw.known hw.oldCount hw.newCount]
  simp

end PatchReader

/-! ## Reading hunks -/

/-- The lines of some hunks, under any spelling of their headers. -/
inductive HunksSpelled : List Hunk → List Text → Prop where
  | nil : HunksSpelled [] []
  | cons {h : Hunk} {hs : List Hunk} {header : Text} {lines : List Text}
      (first : h.HeaderSpelled header) (rest : HunksSpelled hs lines) :
      HunksSpelled (h :: hs) (header :: h.lines ++ lines)

theorem hunksSpelled_render (hs : List Hunk) : HunksSpelled hs (hs.flatMap Hunk.render) := by
  induction hs with
  | nil => exact .nil
  | cons h hs ih => exact .cons h.headerSpelled_header ih

/-- The hunks that are read are added to those there are, and the names stay. -/
theorem HunksSpelled.foldl_step {hs : List Hunk} {lines : List Text} (hspelled : HunksSpelled hs lines)
    (hw : ∀ h ∈ hs, h.WellFormed) (r : PatchReader) :
    (lines.foldl PatchReader.step r).hunks = r.hunks ++ hs ∧
      (lines.foldl PatchReader.step r).oldName = r.oldName ∧
      (lines.foldl PatchReader.step r).newName = r.newName := by
  induction hspelled generalizing r with
  | nil => exact ⟨(List.append_nil _).symm, rfl, rfl⟩
  | @cons h hs header lines first rest ih =>
    rw [List.foldl_append, PatchReader.foldl_step_hunk (hw h List.mem_cons_self)
      first.startsWith_mark first.readHeader?_eq]
    obtain ⟨hhunks, hold, hnew⟩ := ih (fun h' hh' => hw h' (List.mem_cons_of_mem _ hh'))
      { r with closed := r.hunks, current := some h, oldOwed := 0, newOwed := 0 }
    refine ⟨?_, hold, hnew⟩
    rw [hhunks]
    simp [PatchReader.hunks]

theorem HunksSpelled.newline_not_mem {hs : List Hunk} {lines : List Text}
    (hspelled : HunksSpelled hs lines) (hw : ∀ h ∈ hs, h.WellFormed) : ∀ l ∈ lines, '\n' ∉ l := by
  induction hspelled with
  | nil =>
    intro l hl
    cases hl
  | @cons h hs header lines first rest ih =>
    intro l hl
    rcases List.mem_append.mp hl with hl | hl
    · rcases List.mem_cons.mp hl with rfl | hl
      · exact first.newline_not_mem
      · exact (hw h List.mem_cons_self).oneLine l hl
    · exact ih (fun h' hh' => hw h' (List.mem_cons_of_mem _ hh')) l hl

/-! ## Reading patches -/

/-- The lines of a patch, under any spelling of the headers of its hunks. -/
inductive Patch.Spelled (p : Patch) : List Text → Prop where
  | lines {lines : List Text} (hunks : HunksSpelled p.hunks lines) :
      p.Spelled (("--- ".toList ++ p.oldName) :: ("+++ ".toList ++ p.newName) :: lines)

theorem Patch.spelled_renderLines (p : Patch) : p.Spelled p.renderLines :=
  .lines (hunksSpelled_render p.hunks)

theorem Patch.Spelled.newline_not_mem {p : Patch} {lines : List Text} (hs : p.Spelled lines)
    (ho : '\n' ∉ p.oldName) (hn : '\n' ∉ p.newName) (hw : ∀ h ∈ p.hunks, h.WellFormed) :
    ∀ l ∈ lines, '\n' ∉ l := by
  cases hs with
  | lines hunks =>
    intro l hl
    rcases List.mem_cons.mp hl with rfl | hl
    · simpa using ho
    rcases List.mem_cons.mp hl with rfl | hl
    · simpa using hn
    exact hunks.newline_not_mem hw l hl

/-- What is read from the lines of a patch: its names without the blanks around them, and its hunks. -/
theorem Patch.Spelled.foldl_step {p : Patch} {lines : List Text} (hs : p.Spelled lines)
    (hw : ∀ h ∈ p.hunks, h.WellFormed) :
    (lines.foldl PatchReader.step {}).hunks = p.hunks ∧
      (lines.foldl PatchReader.step {}).oldName = Text.strip p.oldName ∧
      (lines.foldl PatchReader.step {}).newName = Text.strip p.newName := by
  cases hs with
  | lines hunks =>
    exact hunks.foldl_step hw
      { oldName := Text.strip p.oldName, newName := Text.strip p.newName }

/-- **A patch is read from its lines.** -/
theorem Patch.Spelled.read?_eq {p : Patch} {lines : List Text} {t : Text} (hs : p.Spelled lines)
    (ht : diffLines t = lines) (hne : p.hunks ≠ []) (hw : ∀ h ∈ p.hunks, h.WellFormed) :
    Patch.read? t = some ⟨Text.strip p.oldName, Text.strip p.newName, p.hunks⟩ := by
  obtain ⟨hhunks, hold, hnew⟩ := hs.foldl_step hw
  simp only [Patch.read?, PatchReader.run, ht, hhunks, hold, hnew, List.isEmpty_iff, hne, if_false]

/-! ## Numbers that are too long -/

/-- A line with a tag is no header. -/
theorem overlongOnLine?_of_known {l : Text} (h : Tag.of l ≠ .unknown) : overlongOnLine? l = none := by
  have hmark : expect? "@@ -".toList l = none := by
    refine if_neg fun hfront => ?_
    obtain ⟨rest, rfl⟩ := List.isPrefixOf_iff_prefix.mp hfront
    exact h rfl
  rw [overlongOnLine?, HeaderDigits.read?, hmark]
  rfl

theorem HunksSpelled.overlongOnLine?_eq_none_iff {hs : List Hunk} {lines : List Text}
    (hspelled : HunksSpelled hs lines) (hw : ∀ h ∈ hs, h.WellFormed) :
    (∀ l ∈ lines, overlongOnLine? l = none) ↔
      ∀ h ∈ hs, ∀ n ∈ h.numbers, n < Text.powerOfTen Text.digitLimit := by
  induction hspelled with
  | nil => simp
  | @cons h hs header lines first rest ih =>
    have hbody : ∀ l ∈ h.lines, overlongOnLine? l = none := fun l hl =>
      overlongOnLine?_of_known ((hw h List.mem_cons_self).known l hl)
    rw [List.cons_append, List.forall_mem_cons, List.forall_mem_cons, List.forall_mem_append,
      first.overlongOnLine?_eq_none_iff, ih fun h' hh' => hw h' (List.mem_cons_of_mem _ hh'),
      and_iff_right hbody]

/-- **A diff can be read exactly if every number of its patch is short enough.** -/
theorem Patch.Spelled.overlongNumber?_eq_none_iff {p : Patch} {lines : List Text} {t : Text}
    (hs : p.Spelled lines) (ht : diffLines t = lines) (hw : ∀ h ∈ p.hunks, h.WellFormed) :
    overlongNumber? t = none ↔ ∀ h ∈ p.hunks, ∀ n ∈ h.numbers, n < Text.powerOfTen Text.digitLimit := by
  rw [overlongNumber?, List.findSome?_eq_none_iff, ht]
  cases hs with
  | @lines lines hunks =>
    have hold : overlongOnLine? ("--- ".toList ++ p.oldName) = none :=
      overlongOnLine?_of_known Tag.noConfusion
    have hnew : overlongOnLine? ("+++ ".toList ++ p.newName) = none :=
      overlongOnLine?_of_known Tag.noConfusion
    rw [List.forall_mem_cons, List.forall_mem_cons, hunks.overlongOnLine?_eq_none_iff hw,
      and_iff_right hold, and_iff_right hnew]

/-! ## Whole texts -/

/-- The lines of a diff text in which every line is ended. -/
theorem diffLines_flatMap_ended {ls : List Text} (h : ∀ l ∈ ls, '\n' ∉ l) :
    diffLines (ls.flatMap (· ++ ['\n'])) = ls := by
  simp only [diffLines, Text.pieces_flatMap_ended ls h, List.getLast?_append, List.getLast?_singleton,
    Option.some_or, if_true, List.dropLast_concat]

theorem Patch.diffLines_render {p : Patch} (ho : '\n' ∉ p.oldName) (hn : '\n' ∉ p.newName)
    (hw : ∀ h ∈ p.hunks, h.WellFormed) : diffLines p.render = p.renderLines :=
  diffLines_flatMap_ended (p.spelled_renderLines.newline_not_mem ho hn hw)

/-- **A written patch is read back.** -/
theorem Patch.read?_render {p : Patch} (hne : p.hunks ≠ []) (ho : '\n' ∉ p.oldName)
    (hn : '\n' ∉ p.newName) (hw : ∀ h ∈ p.hunks, h.WellFormed) :
    Patch.read? p.render = some ⟨Text.strip p.oldName, Text.strip p.newName, p.hunks⟩ :=
  p.spelled_renderLines.read?_eq (p.diffLines_render ho hn hw) hne hw

/-- A patch without hunks is not read at all. -/
theorem Patch.read?_render_of_hunks_eq_nil {p : Patch} (hnil : p.hunks = []) (ho : '\n' ∉ p.oldName)
    (hn : '\n' ∉ p.newName) : Patch.read? p.render = none := by
  have hw : ∀ h ∈ p.hunks, h.WellFormed := by simp [hnil]
  obtain ⟨hhunks, -, -⟩ := p.spelled_renderLines.foldl_step hw
  simp only [Patch.read?, PatchReader.run, p.diffLines_render ho hn hw, hhunks, hnil,
    List.isEmpty_nil, if_true]

end PatchLint
