import PatchLint.Proofs.Json.Printed
import PatchLint.Proofs.Report.ProcessingOrder

/-!
# Reading back a JSON report

The report in JSON holds one list: the syntax errors by file, then the findings by file, line and column. A reader
gets exactly this list back, with every name, message and source line as it has been, whatever characters are in it.

A reader that has a limit for the digits of integers gets it back too, unless a line, a column or an offset is
longer than that.

* `Collection.exact_toJson` — a report is a value that can be told from its text
* `Collection.isTextOf_format` — its text holds it
* `Collection.format_json_exact` — what is in it, and that nothing else can be read
-/

namespace PatchLint

open Json (IsShort Exact)

variable {digits : Option Nat}

/-! ## Numbers -/

/-- The numbers of a place. -/
def Place.numbers (p : Place) : List Int := [p.line, p.column] ++ p.endLine.toList ++ p.endColumn.toList

/-- The numbers of a finding: those of its place, and its offsets. -/
def FileDiagnostic.numbers (d : FileDiagnostic) : List Int :=
  d.place.numbers ++ [d.diagnostic.start, d.diagnostic.stop]

/-- The numbers of a report. -/
def Collection.numbers (c : Collection) : List Int :=
  c.syntaxErrors.flatMap (·.place.numbers) ++ c.diagnostics.flatMap (·.numbers)

/-! ## Entries -/

theorem exact_optionalInt {n : Option Int} (h : ∀ m ∈ n.toList, IsShort digits m) :
    Exact digits (.value (optionalInt n)) := by
  cases n with
  | none => exact .null
  | some n => exact .int (h n List.mem_cons_self)

theorem exact_optionalLine (line : Option Text) : Exact digits (.value (optionalLine line)) := by
  cases line with
  | none => exact .null
  | some line => exact .str _

theorem FileSyntaxError.exact_toJson {e : FileSyntaxError} (h : ∀ n ∈ e.place.numbers, IsShort digits n) :
    Exact digits (.value e.toJson) := by
  simp only [Place.numbers, List.cons_append, List.forall_mem_cons] at h
  obtain ⟨hline, hcolumn, -⟩ := h
  have hnames : ["file", "line", "column", "ruleId", "severity", "message"].Nodup := by decide
  refine .object hnames (.members_of_forall ?_)
  simp only [List.forall_mem_cons]
  exact ⟨.str _, .int hline, .int hcolumn, .str _, .str _, .str _, by simp⟩

/-- The names of the members of a finding, but for that of its source line. -/
def findingNames : List String :=
  ["file", "line", "column", "end_line", "end_column", "ruleId", "message", "start", "end", "severity", "quickFixable"]

theorem nodup_findingNames : (findingNames ++ ["source_line"]).Nodup := by decide

theorem FileDiagnostic.exact_toJson {d : FileDiagnostic} (showSource : Bool)
    (h : ∀ n ∈ d.numbers, IsShort digits n) : Exact digits (.value (d.toJson showSource)) := by
  simp only [FileDiagnostic.numbers, Place.numbers, List.forall_mem_append, List.forall_mem_cons] at h
  obtain ⟨⟨⟨⟨hline, hcolumn, -⟩, hendLine⟩, hendColumn⟩, hstart, hstop, -⟩ := h
  have hplace : ∀ f ∈ [("file", Json.str d.file), ("line", .int d.place.line), ("column", .int d.place.column),
      ("end_line", optionalInt d.place.endLine), ("end_column", optionalInt d.place.endColumn)],
      Exact digits (.value f.2) := by
    simp only [List.forall_mem_cons]
    exact ⟨.str _, .int hline, .int hcolumn, exact_optionalInt hendLine, exact_optionalInt hendColumn, by simp⟩
  have hfinding : ∀ f ∈ d.diagnostic.fields, Exact digits (.value f.2) := by
    simp only [Diagnostic.fields, List.forall_mem_cons]
    exact ⟨.str _, .str _, .int hstart, .int hstop, .str _, .bool _, by simp⟩
  have hmembers := List.forall_mem_append.mpr ⟨hplace, hfinding⟩
  cases showSource with
  | false =>
    refine .object (List.nodup_append.mp nodup_findingNames).1 (.members_of_forall ?_)
    exact List.forall_mem_append.mpr ⟨hmembers, by simp⟩
  | true =>
    refine .object nodup_findingNames (.members_of_forall ?_)
    exact List.forall_mem_append.mpr ⟨hmembers, by simpa using exact_optionalLine d.sourceLine⟩

/-- **A report is a value that can be told from its text.** -/
theorem Collection.exact_toJson {c : Collection} (showSource : Bool) (h : ∀ n ∈ c.numbers, IsShort digits n) :
    Exact digits (.value (c.toJson showSource)) := by
  rw [numbers, List.forall_mem_append] at h
  refine .list (.items_of_forall fun v hv => ?_)
  rcases List.mem_append.mp hv with hv | hv
  · obtain ⟨e, he, rfl⟩ := List.mem_map.mp hv
    have hadded : e ∈ c.syntaxErrors := List.mem_mergeSort.mp he
    exact FileSyntaxError.exact_toJson fun n hn => h.1 n (List.mem_flatMap.mpr ⟨e, hadded, hn⟩)
  · obtain ⟨d, hd, rfl⟩ := List.mem_map.mp hv
    have hadded : d ∈ c.diagnostics := List.mem_mergeSort.mp hd
    exact FileDiagnostic.exact_toJson showSource fun n hn => h.2 n (List.mem_flatMap.mpr ⟨d, hadded, hn⟩)

/-! ## Reports -/

/-- The text of a report holds its value, for a reader that converts the numbers of the report. -/
theorem Collection.isTextOf_format {c : Collection} (config : Config) (h : ∀ n ∈ c.numbers, IsShort digits n) :
    Json.IsTextOf digits (c.format { config with outputFormat := .json }).toList (c.toJson config.showSource) := by
  have htext : (c.format { config with outputFormat := .json }).toList
      = Json.pretty 0 (c.toJson config.showSource) := String.toList_ofList
  rw [htext]
  exact Json.isTextOf_pretty (c.exact_toJson config.showSource h)

/-- **The text of a report holds the report.** Whatever a reader takes from the text is this list and nothing else:
an object for each syntax error, sorted by file, then an object for each finding, sorted by file, line and column;
what ties keeps the order in which it was added. The source line is there exactly if it is wanted. A reader with a
limit for integers gets the list, if the numbers of the report are within this limit. -/
theorem Collection.format_json_exact (c : Collection) (config : Config) :
    let text := (c.format { config with outputFormat := .json }).toList
    let value : Json := .arr (
      (c.sortedErrors.map fun e => .obj
        [("file", .str e.file), ("line", .int e.place.line), ("column", .int e.place.column),
          ("ruleId", .str "syntax"), ("severity", .str "error"), ("message", .str e.message)])
      ++ c.sorted.map fun d => .obj (
        [("file", .str d.file), ("line", .int d.place.line), ("column", .int d.place.column),
          ("end_line", d.place.endLine.elim .null .int), ("end_column", d.place.endColumn.elim .null .int),
          ("ruleId", .str d.diagnostic.ruleId), ("message", .str d.diagnostic.message),
          ("start", .int d.diagnostic.start), ("end", .int d.diagnostic.stop),
          ("severity", .str d.diagnostic.severity.name), ("quickFixable", .bool d.diagnostic.quickFixable)]
        ++ if config.showSource then [("source_line", d.sourceLine.elim .null fun l => .str (String.ofList l))]
          else []))
    (∀ v, Json.IsTextOf none text v ↔ v = value) ∧
      ((∀ n ∈ c.numbers, n.natAbs < 10 ^ Json.digitLimit) → Json.parse text = .ok value) ∧
      (c.sortedErrors.Perm c.syntaxErrors ∧ c.sortedErrors.Pairwise (fun e e' => e.file ≤ e'.file) ∧
        ∀ file, c.sortedErrors.filter (·.file = file) = c.syntaxErrors.filter (·.file = file)) ∧
      c.sorted.Perm c.diagnostics ∧ c.sorted.Pairwise (fun d d' => d.key ≤ d'.key) ∧
        ∀ k, c.sorted.filter (·.key = k) = c.diagnostics.filter (·.key = k) := by
  intro text value
  have hend (n : Option Int) : optionalInt n = n.elim .null .int := by cases n <;> rfl
  have hline (line : Option Text) :
      optionalLine line = line.elim .null fun l => .str (String.ofList l) := by cases line <;> rfl
  have hvalue : c.toJson config.showSource = value := by
    simp only [toJson, FileSyntaxError.toJson, FileDiagnostic.toJson, Diagnostic.fields, hend, hline]
    rfl
  have hunlimited : Json.IsTextOf none text value :=
    hvalue ▸ isTextOf_format config fun n _ => Json.isShort_none n
  have herrors := fun a b : FileSyntaxError => decide_eq_true_iff (p := a.file ≤ b.file)
  refine ⟨fun v => ⟨fun hv => hv.unique hunlimited, fun hv => hv ▸ hunlimited⟩, fun hlimit => ?_,
    ⟨List.mergeSort_perm _ _, pairwise_mergeSort_key herrors _, filter_mergeSort herrors _⟩,
    List.mergeSort_perm _ _, pairwise_mergeSort_key before_eq_true_iff _, filter_mergeSort before_eq_true_iff _⟩
  have hlimited : Json.IsTextOf (some Json.digitLimit) text value :=
    hvalue ▸ isTextOf_format config fun n hn => Json.isShort_of_lt (by decide) (hlimit n hn)
  exact Json.parse_eq_ok_iff.mpr hlimited

/-- A report with quotation marks, control characters and characters of five digits in it, and without a place where
its finding ends. -/
theorem format_json_exact_quoted :
    let finding : FileDiagnostic :=
      ⟨"b/\u2028\x07.js", ⟨"R2", "Missing import for \"\\\u00e9\"", 0, 12, .warning, false⟩, ⟨2, 3, none, none⟩,
        some "😀\tx;".toList⟩
    let fault : FileSyntaxError := ⟨"c.js", ⟨1, 7, none, none⟩, "Missing ')'\n", none⟩
    let c : Collection := ⟨[finding], [fault]⟩
    Json.parse (c.format { outputFormat := .json }).toList = .ok (.arr [
      .obj [("file", .str "c.js"), ("line", .int 1), ("column", .int 7), ("ruleId", .str "syntax"),
        ("severity", .str "error"), ("message", .str "Missing ')'\n")],
      .obj [("file", .str "b/\u2028\x07.js"), ("line", .int 2), ("column", .int 3), ("end_line", .null),
        ("end_column", .null), ("ruleId", .str "R2"), ("message", .str "Missing import for \"\\\u00e9\""),
        ("start", .int 0), ("end", .int 12), ("severity", .str "warning"), ("quickFixable", .bool false),
        ("source_line", .str "😀\tx;")]]) := by
  intro finding fault c
  have hsmall : ∀ n ∈ c.numbers, n.natAbs < 10 ^ Json.digitLimit := by
    intro n hn
    have hn' : n.natAbs ≤ 12 := by
      revert n
      decide
    have hpow : 10 ^ 2 ≤ 10 ^ Json.digitLimit := Nat.pow_le_pow_right (by decide) (by decide)
    omega
  have hread := (c.format_json_exact { outputFormat := .json }).2.1 hsmall
  have hsorted : c.sorted = [finding] := List.mergeSort_singleton finding
  have hsortedErrors : c.sortedErrors = [fault] := List.mergeSort_singleton fault
  rw [hsorted, hsortedErrors] at hread
  exact hread

end PatchLint
