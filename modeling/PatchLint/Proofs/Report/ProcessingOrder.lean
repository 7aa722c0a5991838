import Mathlib.Data.Prod.Lex
import Mathlib.Data.String.Basic
import PatchLint.Proofs.Order.StableSort
import PatchLint.Report.Format

/-!
# The order in which files are processed

Findings and syntax errors of several files can be added in any order and in batches of any size. What is
printed depends on the order within each file only: the findings are sorted by file, line and column, and what
ties belongs to one file.

The point is that sorting is stable, so two collections are shown alike exactly if they agree on each place.

* `Addition` — one step of filling a collection
* `sorted_eq_iff` — when findings are shown in the same order
* `reports_agree` — two ways of filling a collection that agree on each file give the same reports
-/

namespace PatchLint

/-! ## Filling a collection -/

/-- One step of filling a collection. -/
inductive Addition where
  | finding (d : FileDiagnostic)
  | findings (ds : List FileDiagnostic)
  | syntaxError (e : FileSyntaxError)
  deriving DecidableEq

namespace Addition

/-- The collection after a step. -/
def addTo (c : Collection) : Addition → Collection
  | finding d => c.add d
  | findings ds => c.addAll ds
  | syntaxError e => c.addSyntaxError e

/-- The findings that a step adds. -/
def diagnostics : Addition → List FileDiagnostic
  | finding d => [d]
  | findings ds => ds
  | syntaxError _ => []

/-- The syntax errors that a step adds. -/
def syntaxErrors : Addition → List FileSyntaxError
  | syntaxError e => [e]
  | _ => []

end Addition

/-- The findings that several steps add, in their order. -/
def addedFindings (steps : List Addition) : List FileDiagnostic := steps.flatMap (·.diagnostics)

/-- The syntax errors that several steps add, in their order. -/
def addedErrors (steps : List Addition) : List FileSyntaxError := steps.flatMap (·.syntaxErrors)

namespace Collection

/-- The collection that several steps fill. -/
def ofAdditions (steps : List Addition) : Collection := steps.foldl Addition.addTo {}

theorem foldl_addTo (steps : List Addition) (c : Collection) :
    steps.foldl Addition.addTo c =
      ⟨c.diagnostics ++ addedFindings steps, c.syntaxErrors ++ addedErrors steps⟩ := by
  induction steps generalizing c with
  | nil => simp [addedFindings, addedErrors]
  | cons step steps ih =>
    rw [List.foldl_cons, ih]
    cases step <;>
      simp [Addition.addTo, add, addAll, addSyntaxError, addedFindings, addedErrors,
        Addition.diagnostics, Addition.syntaxErrors]

@[simp] theorem diagnostics_ofAdditions (steps : List Addition) :
    (ofAdditions steps).diagnostics = addedFindings steps := by
  rw [ofAdditions, foldl_addTo, List.nil_append]

@[simp] theorem syntaxErrors_ofAdditions (steps : List Addition) :
    (ofAdditions steps).syntaxErrors = addedErrors steps := by
  rw [ofAdditions, foldl_addTo, List.nil_append, List.nil_append]

end Collection

/-! ## Sorted findings -/

/-- What findings are sorted by: the file, then the line, then the column. -/
def FileDiagnostic.key (d : FileDiagnostic) : String ×ₗ Int ×ₗ Int :=
  toLex (d.file, toLex (d.place.line, d.place.column))

namespace Collection

theorem before_eq_true_iff (a b : FileDiagnostic) : before a b = true ↔ a.key ≤ b.key := by
  rw [FileDiagnostic.key, FileDiagnostic.key, Prod.Lex.toLex_le_toLex, Prod.Lex.toLex_le_toLex, before]
  by_cases hfile : a.file = b.file
  · by_cases hline : a.place.line = b.place.line
    · simp [hfile, hline]
    · simp [hfile, hline]
  · simp [hfile]

/-- **Findings are shown in the same order exactly if they agree on each place.** -/
theorem sorted_eq_iff {c c' : Collection} :
    c.sorted = c'.sorted ↔
      ∀ k, c.diagnostics.filter (fun d => d.key = k) = c'.diagnostics.filter (fun d => d.key = k) :=
  mergeSort_eq_iff before_eq_true_iff

theorem sortedErrors_eq_iff {c c' : Collection} :
    c.sortedErrors = c'.sortedErrors ↔
      ∀ file, c.syntaxErrors.filter (fun e => e.file = file) = c'.syntaxErrors.filter (fun e => e.file = file) :=
  mergeSort_eq_iff fun _ _ => decide_eq_true_iff

/-! ## Reports -/

/-- Whether two collections give the same reports: every count, the verdict and every output. -/
structure SameReports (c c' : Collection) : Prop where
  findings : c.diagnostics.length = c'.diagnostics.length
  syntaxErrors : c.syntaxErrors.length = c'.syntaxErrors.length
  counts : ∀ severity, c.count severity = c'.count severity
  verdict : c.hasErrors = c'.hasErrors
  texts : ∀ showSource, c.toText showSource = c'.toText showSource
  values : ∀ showSource, (c.toJson showSource).render = (c'.toJson showSource).render
  outputs : ∀ config, c.format config = c'.format config
  summaries : c.summary = c'.summary
  wholes : ∀ config filesChecked, c.report config filesChecked = c'.report config filesChecked

/-- **A report is made from what is sorted.** Counting needs no order. -/
theorem SameReports.of_sorted {c c' : Collection} (hfindings : c.sorted = c'.sorted)
    (herrors : c.sortedErrors = c'.sortedErrors) : SameReports c c' := by
  have hperm : c.diagnostics.Perm c'.diagnostics := by
    refine (List.mergeSort_perm c.diagnostics before).symm.trans ?_
    rw [← sorted, hfindings]
    exact List.mergeSort_perm c'.diagnostics before
  have hlength : c.syntaxErrors.length = c'.syntaxErrors.length := by
    have hsorted := congrArg List.length herrors
    rwa [sortedErrors, sortedErrors, List.length_mergeSort, List.length_mergeSort] at hsorted
  have hcount : ∀ severity, c.count severity = c'.count severity := fun severity => hperm.countP_eq _
  have hverdict : c.hasErrors = c'.hasErrors := by
    have hempty : c.syntaxErrors.isEmpty = c'.syntaxErrors.isEmpty := by
      rw [Bool.eq_iff_iff, List.isEmpty_iff_length_eq_zero, List.isEmpty_iff_length_eq_zero, hlength]
    rw [hasErrors, hasErrors, hempty, hcount]
  have htext : ∀ showSource, c.toText showSource = c'.toText showSource := by
    intro showSource
    rw [toText, toText, hfindings, herrors]
  have hjson : ∀ showSource, c.toJson showSource = c'.toJson showSource := by
    intro showSource
    rw [toJson, toJson, hfindings, herrors]
  have hformat : ∀ config, c.format config = c'.format config := by
    intro config
    rw [format, format, htext, hjson]
  have hsummary : c.summary = c'.summary := by
    rw [summary, summary, hlength, hcount, hcount, hcount]
  exact
    { findings := hperm.length_eq
      syntaxErrors := hlength
      counts := hcount
      verdict := hverdict
      texts := htext
      values := fun showSource => by rw [hjson]
      outputs := hformat
      summaries := hsummary
      wholes := fun config filesChecked => by rw [report, report, hformat, hsummary] }

end Collection

/-- Findings that agree on each file agree on each place. -/
theorem filter_key_eq {l l' : List FileDiagnostic}
    (h : ∀ file, l.filter (fun d => d.file = file) = l'.filter (fun d => d.file = file))
    (k : String ×ₗ Int ×ₗ Int) :
    l.filter (fun d => d.key = k) = l'.filter (fun d => d.key = k) := by
  have hwithin : ∀ m : List FileDiagnostic,
      m.filter (fun d => d.key = k) = (m.filter fun d => d.file = (ofLex k).1).filter fun d => d.key = k := by
    intro m
    rw [List.filter_filter]
    refine List.filter_congr fun d _ => ?_
    rw [← Bool.decide_and, decide_eq_decide]
    refine ⟨fun hk => ⟨hk, ?_⟩, And.left⟩
    rw [← hk]
    rfl
  rw [hwithin l, h, ← hwithin l']

/-- **Reports do not depend on the order in which files are processed.** Take two ways of filling a collection
in which the findings of each file are added in the same order, and so are its syntax errors. Then the findings
and the syntax errors are shown in the same order, and all counts and outputs are the same. The findings are
shown by file, line and column, and what ties in the order in which it was added. -/
theorem reports_agree {steps steps' : List Addition}
    (hfindings : ∀ file, (addedFindings steps).filter (fun d => d.file = file) =
      (addedFindings steps').filter fun d => d.file = file)
    (herrors : ∀ file, (addedErrors steps).filter (fun e => e.file = file) =
      (addedErrors steps').filter fun e => e.file = file) :
    let c := Collection.ofAdditions steps
    let c' := Collection.ofAdditions steps'
    (c.sorted = c'.sorted ∧ c.sortedErrors = c'.sortedErrors ∧ c.SameReports c') ∧
      c.sorted.Perm (addedFindings steps) ∧ c.sorted.Pairwise (fun d e => d.key ≤ e.key) ∧
      ∀ k, c.sorted.filter (fun d => d.key = k) = (addedFindings steps).filter fun d => d.key = k := by
  intro c c'
  have hsorted : c.sorted = c'.sorted := by
    rw [Collection.sorted_eq_iff, Collection.diagnostics_ofAdditions, Collection.diagnostics_ofAdditions]
    exact filter_key_eq hfindings
  have hsortedErrors : c.sortedErrors = c'.sortedErrors := by
    rw [Collection.sortedErrors_eq_iff, Collection.syntaxErrors_ofAdditions, Collection.syntaxErrors_ofAdditions]
    exact herrors
  have hadded : c.diagnostics = addedFindings steps := Collection.diagnostics_ofAdditions steps
  refine ⟨⟨hsorted, hsortedErrors, .of_sorted hsorted hsortedErrors⟩, ?_, ?_, ?_⟩
  · rw [← hadded]
    exact List.mergeSort_perm _ _
  · exact pairwise_mergeSort_key Collection.before_eq_true_iff _
  · intro k
    rw [← hadded]
    exact filter_mergeSort Collection.before_eq_true_iff _ k

/-- Two files that are processed one after the other, and with their findings added in turns. Two findings of
one file are at the same place. -/
theorem reports_agree_turns :
    let finding (file rule : String) : FileDiagnostic := ⟨file, ⟨rule, "", 0, 1, .error, false⟩, ⟨1, 1, none, none⟩, none⟩
    let fault : FileSyntaxError := ⟨"c.js", ⟨1, 1, none, none⟩, "Unexpected", none⟩
    let steps := [.findings [finding "b.js" "R2", finding "b.js" "R1"], .finding (finding "a.js" "R1"), .syntaxError fault]
    let steps' := [.finding (finding "b.js" "R2"), .syntaxError fault,
      .findings [finding "a.js" "R1", finding "b.js" "R1"]]
    addedFindings steps ≠ addedFindings steps' ∧
      (Collection.ofAdditions steps).sorted = (Collection.ofAdditions steps').sorted ∧
      (Collection.ofAdditions steps).summary = (Collection.ofAdditions steps').summary := by
  intro finding fault steps steps'
  have hfindings : ∀ file, (addedFindings steps).filter (fun d => d.file = file) =
      (addedFindings steps').filter fun d => d.file = file := by
    intro file
    by_cases ha : "a.js" = file
    · subst ha
      decide
    · simp [addedFindings, steps, steps', Addition.diagnostics, finding, List.filter_cons, ha]
  have herrors : ∀ file, (addedErrors steps).filter (fun e => e.file = file) =
      (addedErrors steps').filter fun e => e.file = file := fun file => rfl
  obtain ⟨⟨hsorted, -, hreports⟩, -⟩ := reports_agree hfindings herrors
  exact ⟨by decide, hsorted, hreports.summaries⟩

end PatchLint
