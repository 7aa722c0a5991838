import PatchLint.Proofs.Config.Reports
import PatchLint.Proofs.Config.RuleKeys

/-!
# What each check of a setting reports

For each check it is said which settings are wrong, without the check, and shown that its problems tell of
exactly these.

* `checkPatterns_reports`, `checkNames_reports`, … — single settings
* `WrongRule`, `WrongOption`, `WrongGenerator` — the labels of wrong settings of rules and generator
* `checkRule_eq`, `foldl_checkRule` — the settings of rules one after the other
* `checkRules_reports`, `checkGenerator_cases` — all settings of the rules and of the generator
-/

namespace PatchLint

open Json (lookup)

variable {settings : List (String × Value)} {key : String}

/-! ## Single settings -/

theorem checkPatterns_reports (settings : List (String × Value)) (key : String)
    (default : List String) :
    Reports (checkPatterns settings key default).2
      fun l => l = key ∧ ¬Fits settings key Value.IsList := by
  unfold checkPatterns
  cases h : lookup key settings with
  | none => exact .fine (fits_of_none h)
  | some v =>
    rw [fits_iff_of_some h]
    cases v with
    | arr items => exact .fine ⟨items, rfl⟩
    | _ =>
      dsimp only
      rw [String.append_assoc]
      refine .one ?_ _
      rintro ⟨items, hitems⟩
      cases hitems

theorem allTexts?_eq_some_iff {items : List Value} {names : List String} :
    allTexts? items = some names ↔ items = names.map .str := by
  induction items generalizing names with
  | nil => cases names <;> simp [allTexts?]
  | cons v items ih =>
    cases v with
    | str s =>
      cases names with
      | nil => simp [allTexts?]
      | cons name names =>
        simp only [allTexts?, Option.map_eq_some_iff, ih, List.map_cons, List.cons.injEq, Value.str.injEq]
        constructor
        · rintro ⟨_, h, rfl, rfl⟩
          exact ⟨rfl, h⟩
        · rintro ⟨rfl, h⟩
          exact ⟨names, h, rfl, rfl⟩
    | _ => cases names <;> simp [allTexts?]

theorem checkNames_reports (settings : List (String × Value)) (key label : String) :
    Reports (checkNames settings key label).2
      fun l => l = label ∧ ¬Fits settings key Value.IsNames := by
  unfold checkNames
  dsimp only
  cases h : lookup key settings with
  | none => exact .fine (fits_of_none h)
  | some v =>
    rw [fits_iff_of_some h]
    cases v with
    | arr items =>
      dsimp only
      cases hnames : allTexts? items with
      | some names =>
        exact .fine ⟨names, congrArg _ (allTexts?_eq_some_iff.mp hnames)⟩
      | none =>
        refine .one ?_ _
        rintro ⟨names, heq⟩
        have hsome := allTexts?_eq_some_iff.mpr (Value.arr.inj heq)
        rw [hnames] at hsome
        cases hsome
    | _ =>
      refine .one ?_ _
      rintro ⟨names, heq⟩
      cases heq

theorem text?_bind_eq_some_iff {α : Type} {ofName? : String → Option α} {name : α → String}
    (hname : ∀ text a, ofName? text = some a ↔ text = name a) {v : Value} {a : α} :
    v.text?.bind ofName? = some a ↔ v = .str (name a) := by
  cases v <;> simp [Value.text?, hname]

theorem text?_bind_eq_none_iff {α : Type} {ofName? : String → Option α} {name : α → String}
    (hname : ∀ text a, ofName? text = some a ↔ text = name a) {v : Value} :
    v.text?.bind ofName? = none ↔ ¬v.IsNameOf name := by
  simp only [Option.eq_none_iff_forall_ne_some, ne_eq, text?_bind_eq_some_iff hname, Value.IsNameOf,
    not_exists]

theorem checkChoice_reports {α : Type} {ofName? : String → Option α} {name : α → String}
    (hname : ∀ text a, ofName? text = some a ↔ text = name a) (names : List String)
    (settings : List (String × Value)) (key label : String) (default : α) :
    Reports (checkChoice ofName? names settings key label default).2
      fun l => l = label ∧ ¬Fits settings key (Value.IsNameOf name) := by
  unfold checkChoice
  cases h : lookup key settings with
  | none => exact .fine (fits_of_none h)
  | some v =>
    rw [fits_iff_of_some h]
    dsimp only
    cases ha : v.text?.bind ofName? with
    | some a => exact .fine ⟨a, (text?_bind_eq_some_iff hname).mp ha⟩
    | none =>
      dsimp only
      rw [String.append_assoc]
      exact .one ((text?_bind_eq_none_iff hname).mp ha) _

theorem checkBool_reports (settings : List (String × Value)) (key : String) (default : Bool) :
    Reports (checkBool settings key default).2
      fun l => l = key ∧ ¬Fits settings key Value.IsBool := by
  unfold checkBool
  cases h : lookup key settings with
  | none => exact .fine (fits_of_none h)
  | some v =>
    rw [fits_iff_of_some h]
    cases v with
    | bool b => exact .fine ⟨b, rfl⟩
    | _ =>
      refine .one ?_ _
      rintro ⟨b, hb⟩
      cases hb

/-! ## Rules -/

/-- Whether a key is the code of a rule or its code in small letters. -/
def IsRuleKey (key : String) : Prop := ∃ r : Rule, key = r.code ∨ key = lowerAscii r.code

theorem ruleOfKey?_eq_none_iff {key : String} : ruleOfKey? key = none ↔ ¬IsRuleKey key := by
  simp only [IsRuleKey, ← ruleOfKey?_eq_some_iff, Option.eq_none_iff_forall_ne_some, not_exists, ne_eq]

theorem isRuleKey_of_ruleOfKey? {r : Rule} (h : ruleOfKey? key = some r) : IsRuleKey key :=
  ⟨r, ruleOfKey?_eq_some_iff.mp h⟩

theorem Severity.ofName?_eq_some_iff {name : String} {s : Severity} :
    Severity.ofName? name = some s ↔ name = s.name := find?_name_eq_some_iff Severity.ofName?_name

theorem severityOf?_eq_none_iff {v : Value} : severityOf? v = none ↔ ¬v.IsSeverity := by
  cases v with
  | str t =>
    simp [severityOf?, Value.text?, Value.IsSeverity, Option.eq_none_iff_forall_ne_some,
      Severity.ofName?_eq_some_iff]
  | _ => simp [severityOf?, Value.text?, Value.IsSeverity]

/-- The labels of what is wrong with the settings under one key of the rules: the key, or the severity. A
value that is neither a text nor a table is not looked at. -/
inductive WrongRule : String × Value → String → Prop
  | key {key : String} {v : Value} : ¬IsRuleKey key → WrongRule (key, v) ("rules." ++ key)
  | severity {key s : String} : IsRuleKey key → ¬(Value.str s).IsSeverity →
    WrongRule (key, .str s) ("rules." ++ key)
  | tableSeverity {key : String} {fields : List (String × Value)} : IsRuleKey key →
    ¬Fits fields "severity" Value.IsSeverity → WrongRule (key, .table fields) ("rules." ++ key ++ ".severity")

/-- The severities after the settings under one key. -/
def appliedSeverity (severity : Rule → Severity) (entry : String × Value) : Rule → Severity :=
  match ruleOfKey? entry.1, (ruleSeverity? entry.1 entry.2).bind (·.2) with
  | some rule, some s => setSeverity severity rule s
  | _, _ => severity

/-- The problems with the settings under one key. -/
def ruleProblems (entry : String × Value) : List String := (checkRule (Rule.defaultSeverity, []) entry).2

theorem checkRule_eq (severity : Rule → Severity) (problems : List String) (entry : String × Value) :
    checkRule (severity, problems) entry =
      (appliedSeverity severity entry, problems ++ ruleProblems entry) := by
  unfold ruleProblems checkRule appliedSeverity
  cases ruleOfKey? entry.1 with
  | none => simp
  | some rule =>
    dsimp only
    cases ruleSeverity? entry.1 entry.2 with
    | none => simp
    | some given =>
      obtain ⟨label, found⟩ := given
      cases found <;> simp

/-- The settings of rules, one after the other. -/
theorem foldl_checkRule (severity : Rule → Severity) (problems : List String)
    (entries : List (String × Value)) :
    entries.foldl checkRule (severity, problems) =
      (entries.foldl appliedSeverity severity, problems ++ entries.flatMap ruleProblems) := by
  induction entries generalizing severity problems with
  | nil => simp
  | cons entry entries ih =>
    rw [List.foldl_cons, checkRule_eq, ih, List.foldl_cons, List.flatMap_cons, List.append_assoc]

/-- What is wrong under the key of a rule is a severity that names none. -/
theorem wrongRule_iff {v : Value} (h : IsRuleKey key) (label : String) :
    WrongRule (key, v) label ↔ ruleSeverity? key v = some (label, none) := by
  constructor
  · rintro (hkey | ⟨-, hs⟩ | ⟨-, hs⟩)
    · exact absurd h hkey
    · rw [ruleSeverity?, severityOf?_eq_none_iff.mpr hs]
    · next fields =>
      cases hfield : lookup "severity" fields with
      | none => exact absurd (fits_of_none hfield) hs
      | some w =>
        rw [fits_iff_of_some hfield, ← severityOf?_eq_none_iff] at hs
        rw [ruleSeverity?, hfield, Option.map_some, hs]
  · intro hgiven
    cases v with
    | str s =>
      obtain ⟨rfl, hs⟩ := Prod.mk.inj (Option.some.inj hgiven)
      exact .severity h (severityOf?_eq_none_iff.mp hs)
    | table fields =>
      obtain ⟨w, hfield, hw⟩ := Option.map_eq_some_iff.mp hgiven
      obtain ⟨rfl, hs⟩ := Prod.mk.inj hw
      refine .tableSeverity h ?_
      rwa [fits_iff_of_some hfield, ← severityOf?_eq_none_iff]
    | _ => cases hgiven

theorem ruleProblems_reports (entry : String × Value) :
    Reports (ruleProblems entry) (WrongRule entry) := by
  obtain ⟨key, v⟩ := entry
  unfold ruleProblems checkRule
  dsimp only
  cases hkey : ruleOfKey? key with
  | none =>
    have hno := ruleOfKey?_eq_none_iff.mp hkey
    refine (Reports.one hno " is not a known rule code").congr fun label => ⟨?_, ?_⟩
    · rintro ⟨rfl, -⟩
      exact .key hno
    · rintro (_ | ⟨h, -⟩ | ⟨h, -⟩)
      · exact ⟨rfl, hno⟩
      · exact absurd h hno
      · exact absurd h hno
  | some rule =>
    have hyes := isRuleKey_of_ruleOfKey? hkey
    simp only [funext fun label => propext (wrongRule_iff (v := v) hyes label)]
    cases hgiven : ruleSeverity? key v with
    | none => exact .nothing fun label h => nomatch h
    | some given =>
      obtain ⟨label, found⟩ := given
      cases found with
      | some s => exact .nothing fun label' h => nomatch h
      | none =>
        dsimp only
        rw [List.nil_append, String.append_assoc]
        refine (Reports.one hgiven _).congr fun label' => ?_
        simp [hgiven, eq_comm]

/-- The labels of wrong options of rules. They are looked up under the codes of the rules only. -/
inductive WrongOption (rules : List (String × Value)) : String → Prop
  | globals {fields : List (String × Value)} : lookup "R2" rules = some (.table fields) →
    ¬Fits fields "globals" Value.IsNames → WrongOption rules "rules.R2.globals"
  | allow {fields : List (String × Value)} : lookup "R3" rules = some (.table fields) →
    ¬Fits fields "allow" Value.IsNames → WrongOption rules "rules.R3.allow"

/-- Whether an option of a rule is given and is no list of names. -/
def IsOptionWrong (rules : List (String × Value)) (rule : Rule) (option : String) : Prop :=
  ∃ fields, lookup rule.code rules = some (.table fields) ∧ ¬Fits fields option Value.IsNames

theorem checkRuleOption_reports (rules : List (String × Value)) (rule : Rule) (option : String) :
    Reports (checkRuleOption rules rule option).2
      fun l => l = "rules." ++ rule.code ++ "." ++ option ∧ IsOptionWrong rules rule option := by
  unfold checkRuleOption
  split
  · next fields h =>
    refine (checkNames_reports fields option _).congr fun label => and_congr_right fun _ => ?_
    simp [IsOptionWrong, h]
  · next h =>
    refine .nothing ?_
    rintro _ ⟨-, fields, hfields, -⟩
    exact h fields hfields

/-- **The settings of the rules.** Their problems tell of the wrong settings under each key and of the wrong
options. -/
theorem checkRules_reports (rules : List (String × Value)) :
    Reports (checkRules rules).2
      fun label => (∃ entry ∈ rules, WrongRule entry label) ∨ WrongOption rules label := by
  unfold checkRules
  rw [foldl_checkRule, List.nil_append]
  refine (((Reports.flatMap ruleProblems_reports).append
    (checkRuleOption_reports rules .missingImport "globals")).append
    (checkRuleOption_reports rules .nullAccess "allow")).congr fun label => ?_
  rw [or_assoc]
  refine or_congr_right ⟨?_, ?_⟩
  · rintro (⟨rfl, fields, h, hwrong⟩ | ⟨rfl, fields, h, hwrong⟩)
    · exact .globals h hwrong
    · exact .allow h hwrong
  · rintro (⟨h, hwrong⟩ | ⟨h, hwrong⟩)
    · exact Or.inl ⟨rfl, _, h, hwrong⟩
    · exact Or.inr ⟨rfl, _, h, hwrong⟩

/-! ## Generator -/

theorem Provider.ofName?_eq_some_iff {name : String} {p : Provider} :
    Provider.ofName? name = some p ↔ name = p.name :=
  find?_name_eq_some_iff fun p => by cases p <;> decide

theorem checkText_reports (settings : List (String × Value)) (key : String) :
    Reports (checkText settings key).2
      fun l => l = "generator." ++ key ∧ ¬Fits settings key Value.IsOptionalText := by
  unfold checkText
  cases h : lookup key settings with
  | none => exact .fine (fits_of_none h)
  | some v =>
    rw [fits_iff_of_some h]
    cases v with
    | null => exact .fine (Or.inl rfl)
    | str s => exact .fine (Or.inr ⟨s, rfl⟩)
    | _ =>
      refine .one ?_ _
      rintro (hv | ⟨s, hv⟩) <;> cases hv

theorem checkCount_reports (settings : List (String × Value)) (key : String) (default : Int) :
    Reports (checkCount settings key default).2
      fun l => l = "generator." ++ key ∧ ¬Fits settings key Value.IsCount := by
  unfold checkCount
  cases h : lookup key settings with
  | none => exact .fine (fits_of_none h)
  | some v =>
    rw [fits_iff_of_some h]
    cases v with
    | int n =>
      dsimp only
      split
      · next hn => exact .fine ⟨n, rfl, hn⟩
      · next hn =>
        refine .one ?_ _
        rintro ⟨m, hm, hpos⟩
        cases hm
        exact hn hpos
    | _ =>
      refine .one ?_ _
      rintro ⟨n, hn, -⟩
      cases hn

/-- Whether the setting under a key is an integer that passes a test and is too large for a floating point
number. -/
def IsTooLarge (settings : List (String × Value)) (key : String) (passes : Value → Bool) : Prop :=
  ∃ n, lookup key settings = some (.int n) ∧ passes (.int n) = true ∧ Binary64.ofInt? n = none

/-- A number is too large, or it is checked like other settings. -/
theorem checkNumber_cases (settings : List (String × Value)) (key problem : String)
    (passes : Value → Bool) (default : Binary64) :
    (IsTooLarge settings key passes ∧ checkNumber settings key problem passes default = none) ∨
      ¬IsTooLarge settings key passes ∧ ∃ x ps,
        checkNumber settings key problem passes default = some (x, ps) ∧
        Reports ps fun l => l = "generator." ++ key ∧
          ¬Fits settings key fun v => v.IsNumber ∧ passes v = true := by
  unfold checkNumber
  cases h : lookup key settings with
  | none =>
    refine Or.inr ⟨?_, default, [], rfl, .fine (fits_of_none h)⟩
    rintro ⟨n, hn, -⟩
    rw [h] at hn
    cases hn
  | some v =>
    simp only [fits_iff_of_some h, IsTooLarge, h, Option.some.injEq]
    have hreport (hwrong : ¬(v.IsNumber ∧ passes v = true)) :
        Reports ["generator." ++ key ++ " must be " ++ problem]
          fun l => l = "generator." ++ key ∧ ¬(v.IsNumber ∧ passes v = true) := by
      rw [String.append_assoc]
      exact .one hwrong _
    by_cases hpasses : passes v = true
    · cases v with
      | int n =>
        cases hn : Binary64.ofInt? n with
        | none => exact Or.inl ⟨⟨n, rfl, hpasses, hn⟩, by simp [numberOf?, hn, hpasses]⟩
        | some x =>
          refine Or.inr ⟨?_, x, [], by simp [numberOf?, hn, hpasses],
            .fine ⟨Or.inl ⟨n, rfl⟩, hpasses⟩⟩
          rintro ⟨m, hm, -, hnone⟩
          cases hm
          rw [hn] at hnone
          cases hnone
      | float x =>
        refine Or.inr ⟨?_, x, [], by simp [numberOf?, hpasses],
          .fine ⟨Or.inr ⟨x, rfl⟩, hpasses⟩⟩
        rintro ⟨m, hm, -⟩
        cases hm
      | _ =>
        refine Or.inr ⟨?_, default, _, rfl, hreport ?_⟩
        · rintro ⟨m, hm, -⟩
          cases hm
        · rintro ⟨⟨n, hn⟩ | ⟨x, hx⟩, -⟩
          · cases hn
          · cases hx
    · refine Or.inr ⟨?_, default, _, ?_, hreport fun hv => hpasses hv.2⟩
      · rintro ⟨m, rfl, hm, -⟩
        exact hpasses hm
      · cases v <;> simp [numberOf?, hpasses]

/-- The labels of wrong settings of the generator. -/
inductive WrongGenerator (settings : List (String × Value)) : String → Prop
  | provider : ¬Fits settings "provider" (Value.IsNameOf Provider.name) →
    WrongGenerator settings "generator.provider"
  | model : ¬Fits settings "model" Value.IsOptionalText → WrongGenerator settings "generator.model"
  | baseUrl : ¬Fits settings "base_url" Value.IsOptionalText → WrongGenerator settings "generator.base_url"
  | timeout : ¬Fits settings "timeout" Value.IsNumberAboveZero → WrongGenerator settings "generator.timeout"
  | temperature : ¬Fits settings "temperature" Value.IsNumber →
    WrongGenerator settings "generator.temperature"
  | maxTokens : ¬Fits settings "max_tokens" Value.IsCount → WrongGenerator settings "generator.max_tokens"

/-- Whether a number that a generator needs as a floating point number is too large for one. -/
def HasTooLargeNumber (settings : List (String × Value)) : Prop :=
  (∃ n, lookup "timeout" settings = some (.int n) ∧ 0 < n ∧ Binary64.ofInt? n = none) ∨
    ∃ n, lookup "temperature" settings = some (.int n) ∧ Binary64.ofInt? n = none

theorem isNumber_and_not_isAtMostZero_iff (v : Value) :
    (v.IsNumber ∧ (!isAtMostZero v) = true) ↔ v.IsNumberAboveZero := by
  cases v <;> simp [Value.IsNumber, Value.IsNumberAboveZero, isAtMostZero]

/-- **The settings of the generator.** A number is too large, or their problems tell of the wrong ones. -/
theorem checkGenerator_cases (settings : List (String × Value)) :
    (HasTooLargeNumber settings ∧ checkGenerator (some (.table settings)) = none) ∨
      ¬HasTooLargeNumber settings ∧ ∃ g ps, checkGenerator (some (.table settings)) = some (g, ps) ∧
        Reports ps (WrongGenerator settings) := by
  have hlarge : HasTooLargeNumber settings ↔
      IsTooLarge settings "timeout" (!isAtMostZero ·) ∨ IsTooLarge settings "temperature" fun _ => true := by
    simp [HasTooLargeNumber, IsTooLarge, isAtMostZero]
  unfold checkGenerator
  dsimp only
  rcases checkNumber_cases settings "timeout" "a positive number" (!isAtMostZero ·)
    ({} : GeneratorConfig).timeout with ⟨hyes, h⟩ | ⟨hno, x, ps, h, hreports⟩
  · exact Or.inl ⟨hlarge.mpr (Or.inl hyes), by rw [h]; rfl⟩
  rcases checkNumber_cases settings "temperature" "a number" (fun _ => true)
    ({} : GeneratorConfig).temperature with ⟨hyes', h'⟩ | ⟨hno', x', ps', h', hreports'⟩
  · exact Or.inl ⟨hlarge.mpr (Or.inr hyes'), by rw [h, h']; rfl⟩
  refine Or.inr ⟨fun hl => (hlarge.mp hl).elim hno hno', _, _, by rw [h, h']; rfl, ?_⟩
  have hprovider := checkChoice_reports (fun _ _ => Provider.ofName?_eq_some_iff)
    (Provider.all.map (·.name)) settings "provider" "generator.provider" ({} : GeneratorConfig).provider
  refine ((((((hprovider.append (checkText_reports settings "model")).append
    (checkText_reports settings "base_url")).append hreports).append hreports').append
    (checkCount_reports settings "max_tokens" ({} : GeneratorConfig).maxTokens))).congr fun label => ?_
  simp only [isNumber_and_not_isAtMostZero_iff, and_true]
  constructor
  · rintro (((((⟨rfl, h⟩ | ⟨rfl, h⟩) | ⟨rfl, h⟩) | ⟨rfl, h⟩) | ⟨rfl, h⟩) | ⟨rfl, h⟩)
    · exact .provider h
    · exact .model h
    · exact .baseUrl h
    · exact .timeout h
    · exact .temperature h
    · exact .maxTokens h
  · intro h
    cases h with
    | provider h => exact Or.inl (Or.inl (Or.inl (Or.inl (Or.inl ⟨rfl, h⟩))))
    | model h => exact Or.inl (Or.inl (Or.inl (Or.inl (Or.inr ⟨rfl, h⟩))))
    | baseUrl h => exact Or.inl (Or.inl (Or.inl (Or.inr ⟨rfl, h⟩)))
    | timeout h => exact Or.inl (Or.inl (Or.inr ⟨rfl, h⟩))
    | temperature h => exact Or.inl (Or.inr ⟨rfl, h⟩)
    | maxTokens h => exact Or.inr ⟨rfl, h⟩

end PatchLint
