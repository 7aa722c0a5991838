import Mathlib.Data.Multiset.UnionInter
import PatchLint.Proofs.Fix.KeptRun

/-!
# Names that lack an import after fixing

A fix is discarded if it leaves more findings about missing imports than there were. This counts the
findings and does not look at the names. So a fix that deletes the import of a used name is kept if the
deleted line has taken as many findings with it (`fixAll_unbinds`).

What the count does guarantee is a balance (`newReports_fixAll`): no more findings about missing imports
appear than disappear. A source that loses none of them gets none.
-/

namespace PatchLint

variable {parser : Parser} {c : RuleConfig} {language : Language}

/-- The message that a name lacks an import. -/
def missingMessage (name : String) : String := "Missing import for '" ++ name ++ "'"

/-- Whether some findings say that a name lacks an import. -/
def ReportsMissing (ds : List Diagnostic) (name : String) : Prop :=
  ∃ d ∈ ds, d.ruleId = Rule.missingImport.code ∧ d.message = missingMessage name

instance (ds : List Diagnostic) (name : String) : Decidable (ReportsMissing ds name) :=
  inferInstanceAs (Decidable (∃ d ∈ ds, _))

/-- The messages about missing imports among some findings. -/
def missingMessages (ds : List Diagnostic) : Multiset String :=
  ((ds.filter (·.ruleId == Rule.missingImport.code)).map (·.message) : List String)

/-- The messages about missing imports that are among `new` and were not among `old`. A message that
was there counts as new as often as it is there more often. -/
def newReports (old new : List Diagnostic) : Multiset String :=
  missingMessages new - missingMessages old

theorem card_missingMessages (ds : List Diagnostic) :
    (missingMessages ds).card = missingCount ds := by
  rw [missingMessages, Multiset.coe_card, List.length_map, missingCount, List.countP_eq_length_filter]

theorem missingMessage_mem_iff {ds : List Diagnostic} {name : String} :
    missingMessage name ∈ missingMessages ds ↔ ReportsMissing ds name := by
  simp [missingMessages, ReportsMissing, and_assoc]

/-- **No more messages appear than disappear,** if there are not more than before. -/
theorem card_newReports_le {old new : List Diagnostic}
    (h : missingCount new ≤ missingCount old) :
    (newReports old new).card ≤ (newReports new old).card := by
  have hnew := congrArg Multiset.card
    (Multiset.sub_add_inter (missingMessages new) (missingMessages old))
  have hold := congrArg Multiset.card
    (Multiset.sub_add_inter (missingMessages old) (missingMessages new))
  rw [Multiset.card_add, card_missingMessages] at hnew hold
  rw [Multiset.inter_comm] at hold
  show (missingMessages new - missingMessages old).card
    ≤ (missingMessages old - missingMessages new).card
  omega

/-- If no message disappears, the messages stay the same. -/
theorem missingMessages_eq_of_newReports {old new : List Diagnostic}
    (h : missingCount new ≤ missingCount old) (hlost : newReports new old = 0) :
    missingMessages old = missingMessages new := by
  have hle := Multiset.sub_le_iff_le_add.mp (le_of_eq hlost)
  rw [Multiset.zero_add] at hle
  refine Multiset.eq_of_le_of_card_le hle ?_
  rwa [card_missingMessages, card_missingMessages]

/-- **The balance of missing imports.** Every kept fix, and so the whole run, makes at least as many
findings about missing imports disappear as it makes appear. If none has disappeared at the end, then
every name that lacks an import in the result lacked it in the source. -/
theorem newReports_fixAll (parser : Parser) (c : RuleConfig) (language : Language) (source : Text) :
    let before := analyze parser c language source
    let after := analyze parser c language (fixAll parser c language source)
    (∀ d a next, KeptFix parser c language d a next →
      (newReports d.findings next.findings).card ≤ (newReports next.findings d.findings).card) ∧
    (newReports before after).card ≤ (newReports after before).card ∧
    (newReports after before = 0 → ∀ name, ReportsMissing after name → ReportsMissing before name) := by
  intro before after
  have hcount : missingCount after ≤ missingCount before :=
    (keptRun_fixRun parser c language source).missingCount_le
  refine ⟨fun d a next hfix => card_newReports_le hfix.missingCount_le, card_newReports_le hcount, ?_⟩
  intro hlost name hmissing
  rw [← missingMessage_mem_iff] at hmissing ⊢
  rwa [missingMessages_eq_of_newReports hcount hlost]

/-- A parser of an unused import that shares its line with the import of a used name and with a use of
a name that nothing defines. -/
def sharedLine : Parser :=
  shortParser
    [("import a from 'a'; import b from 'b'; foo();\nb();\n",
        [shortImport 0, shortImport 19, shortCall 38 3, shortCall 45 1]),
     ("b();\n", [shortCall 0 1]),
     ("import a from 'a';\nfoo();\n", [shortImport 0, shortCall 19 3]),
     ("foo();\n", [shortCall 0 3])]

/-- A source that keeps its one finding about a missing import. -/
theorem newReports_fixAll_foo :
    let before := analyze sharedLine {} .js "import a from 'a';\nfoo();\n".toList
    let after := analyze sharedLine {} .js
      (fixAll sharedLine {} .js "import a from 'a';\nfoo();\n".toList)
    newReports after before = 0 ∧ ReportsMissing after "foo" ∧ ReportsMissing before "foo" := by
  have h := newReports_fixAll sharedLine {} .js "import a from 'a';\nfoo();\n".toList
  have hlost : newReports
      (analyze sharedLine {} .js (fixAll sharedLine {} .js "import a from 'a';\nfoo();\n".toList))
      (analyze sharedLine {} .js "import a from 'a';\nfoo();\n".toList) = 0 := by
    decide +kernel
  have hmissing : ReportsMissing
      (analyze sharedLine {} .js (fixAll sharedLine {} .js "import a from 'a';\nfoo();\n".toList))
      "foo" := by
    decide +kernel
  exact ⟨hlost, hmissing, h.2.2 hlost "foo" hmissing⟩

/-- The import of `b` is deleted although `b` is used, as one finding goes with the line and only one
comes for it. -/
theorem fixAll_unbinds :
    let source := "import a from 'a'; import b from 'b'; foo();\nb();\n".toList
    let fixed := fixAll sharedLine {} .js source
    fixed = "b();\n".toList ∧ ({} : RuleConfig).enables .missingImport = true ∧
      ReportsMissing (analyze sharedLine {} .js fixed) "b" ∧
      ¬ReportsMissing (analyze sharedLine {} .js source) "b" := by
  decide +kernel

end PatchLint
