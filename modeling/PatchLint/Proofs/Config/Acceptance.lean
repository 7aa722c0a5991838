import PatchLint.Proofs.Config.Printing
import PatchLint.Proofs.Text.Occurrences

/-!
# Which settings are a configuration

All settings are looked at before any problem is reported. So settings give a configuration exactly if none
of them is wrong (`WrongSetting`), and otherwise one message that names every wrong one. Three things end the
check at once: rules that are no table, numbers without a floating point form, and a wrong setting that has to
be printed and is nested too deeply (`IsTooDeep`).

What is wrong is less than what the documentation rules out (`IsDocumented`): a list of patterns may hold
anything, and an option under a rule that is not spelled out is not looked at, nor are settings of a rule that
are neither text nor table.

* `mem_problemsMessage` — a problem is part of the message
* `not_isTooDeep_of_allow` — settings with no more levels than the limits allow are not nested too deeply
* `not_wrongSetting_of_isDocumented`, `not_isTooDeep_of_isDocumented` — what is documented is neither
* `ofSettings_cases` — the outcomes and when they arise
-/

namespace PatchLint

open Json (lookup)

variable {settings : List (String × Value)}

/-! ## The message -/

/-- **Every problem is part of the message.** -/
theorem mem_problemsMessage {problem : String} {problems : List String} (h : problem ∈ problems) :
    problem.toList <:+: (problemsMessage problems).toList := by
  rw [problemsMessage, joinStrings, String.toList_ofList]
  have hline : ("  - " ++ problem).toList ∈
      ("Configuration errors:" :: problems.map ("  - " ++ ·)).map String.toList :=
    List.mem_map_of_mem (List.mem_cons_of_mem _ (List.mem_map_of_mem h))
  refine List.IsInfix.trans ?_ (Text.infix_joinWith hline)
  rw [String.toList_append]
  exact (List.suffix_append _ _).isInfix

/-! ## Wrong settings -/

theorem OutputFormat.ofName?_eq_some_iff {name : String} {f : OutputFormat} :
    OutputFormat.ofName? name = some f ↔ name = f.name :=
  find?_name_eq_some_iff fun f => by cases f <;> decide

/-- The rules of some settings, if these are a table or are not given. -/
def rulesOf? (settings : List (String × Value)) : Option (List (String × Value)) :=
  rulesTable? (lookup "rules" settings)

/-- Whether a setting that has to be printed is nested too deeply. Printed are the output format and the provider
if they name none, and the severity in the table of a rule if it is no text. -/
inductive IsTooDeep (limits : PrintLimits) (settings : List (String × Value)) : Prop
  | outputFormat {v : Value} : lookup "output_format" settings = some v →
    ¬v.IsNameOf OutputFormat.name → v.printsTooDeep limits.outputFormat = true → IsTooDeep limits settings
  | severity {rules fields : List (String × Value)} {key : String} {v : Value} :
    rulesOf? settings = some rules → (key, .table fields) ∈ rules → IsRuleKey key →
    lookup "severity" fields = some v → v.text? = none → v.printsTooDeep limits.severity = true →
    IsTooDeep limits settings
  | provider {fields : List (String × Value)} {v : Value} : (rulesOf? settings).isSome →
    lookup "generator" settings = some (.table fields) → lookup "provider" fields = some v →
    ¬v.IsNameOf Provider.name → v.printsTooDeep limits.provider = true → IsTooDeep limits settings

/-- Whether limits allow a number of levels. -/
def PrintLimits.Allow (limits : PrintLimits) (levels : Nat) : Prop :=
  ∀ n, limits.outputFormat = some n ∨ limits.severity = some n ∨ limits.provider = some n → levels ≤ n

/-- Whether the generator is to work with a number that has no floating point form. -/
def IsOutOfRange (settings : List (String × Value)) : Prop :=
  ∃ fields, lookup "generator" settings = some (.table fields) ∧ HasTooLargeNumber fields

/-- The labels of wrong settings of the generator, and of a generator that is no table. -/
inductive WrongGeneratorSetting (settings : List (String × Value)) : String → Prop
  | noTable : ¬Fits settings "generator" (fun v => ∃ fields, v = .table fields) →
    WrongGeneratorSetting settings "generator"
  | table {fields : List (String × Value)} {label : String} :
    lookup "generator" settings = some (.table fields) → WrongGenerator fields label →
    WrongGeneratorSetting settings label

/-- The labels of wrong settings. -/
inductive WrongSetting (settings : List (String × Value)) : String → Prop
  | included : ¬Fits settings "include" Value.IsList → WrongSetting settings "include"
  | excluded : ¬Fits settings "exclude" Value.IsList → WrongSetting settings "exclude"
  | outputFormat : ¬Fits settings "output_format" (Value.IsNameOf OutputFormat.name) →
    WrongSetting settings "output_format"
  | showSource : ¬Fits settings "show_source" Value.IsBool → WrongSetting settings "show_source"
  | rule {rules : List (String × Value)} {entry : String × Value} {label : String} :
    rulesOf? settings = some rules → entry ∈ rules → WrongRule entry label → WrongSetting settings label
  | option {rules : List (String × Value)} {label : String} : rulesOf? settings = some rules →
    WrongOption rules label → WrongSetting settings label
  | generator {label : String} : WrongGeneratorSetting settings label → WrongSetting settings label

/-- The generator has a number out of range, or its problems tell of what is wrong with it. -/
theorem checkGenerator_lookup_cases (settings : List (String × Value)) :
    (IsOutOfRange settings ∧ checkGenerator (lookup "generator" settings) = none) ∨
      ¬IsOutOfRange settings ∧ ∃ g ps, checkGenerator (lookup "generator" settings) = some (g, ps) ∧
        Reports ps (WrongGeneratorSetting settings) := by
  cases h : lookup "generator" settings with
  | none =>
    refine Or.inr ⟨?_, {}, [], rfl, .nothing ?_⟩
    · rintro ⟨fields, hfields, -⟩
      rw [h] at hfields
      cases hfields
    · rintro label (hwrong | ⟨hfields, -⟩)
      · exact hwrong (fits_of_none h)
      · rw [h] at hfields
        cases hfields
  | some v =>
    by_cases htable : ∃ fields, v = .table fields
    · obtain ⟨fields, rfl⟩ := htable
      have hrange : IsOutOfRange settings ↔ HasTooLargeNumber fields := by simp [IsOutOfRange, h]
      have hwrong (label : String) : WrongGenerator fields label ↔ WrongGeneratorSetting settings label := by
        constructor
        · exact .table h
        · rintro (hno | ⟨hfields, hlabel⟩)
          · exact absurd ((fits_iff_of_some h).mpr ⟨fields, rfl⟩) hno
          · rw [h] at hfields
            cases hfields
            exact hlabel
      rw [hrange]
      refine (checkGenerator_cases fields).imp_right fun ⟨hno, g, ps, hcheck, hreports⟩ => ?_
      exact ⟨hno, g, ps, hcheck, hreports.congr hwrong⟩
    · have hno : ¬Fits settings "generator" fun v => ∃ fields, v = .table fields := by
        rwa [fits_iff_of_some h]
      refine Or.inr ⟨?_, {}, ["generator must be a table"], ?_, ?_⟩
      · rintro ⟨fields, hfields, -⟩
        rw [h] at hfields
        exact htable ⟨fields, Option.some.inj hfields⟩
      · cases v with
        | table fields => exact absurd ⟨fields, rfl⟩ htable
        | _ => rfl
      · rw [show "generator must be a table" = "generator" ++ " must be a table" from rfl]
        refine (Reports.one hno _).congr fun label => ⟨?_, ?_⟩
        · rintro ⟨rfl, -⟩
          exact .noTable hno
        · rintro (_ | ⟨hfields, -⟩)
          · exact ⟨rfl, hno⟩
          · rw [h] at hfields
            exact absurd ⟨_, Option.some.inj hfields⟩ htable

/-- All problems together tell of the wrong settings. -/
theorem problems_report {rules : List (String × Value)} (h : rulesOf? settings = some rules)
    {ps : List String} (hgenerator : Reports ps (WrongGeneratorSetting settings)) :
    Reports ((checkPatterns settings "include" defaultInclude).2 ++
      (checkPatterns settings "exclude" defaultExclude).2 ++
      (checkChoice OutputFormat.ofName? (OutputFormat.all.map (·.name)) settings "output_format"
        "output_format" .text).2 ++
      (checkBool settings "show_source" true).2 ++ (checkRules rules).2 ++ ps)
      (WrongSetting settings) := by
  refine ((((((checkPatterns_reports settings "include" defaultInclude).append
    (checkPatterns_reports settings "exclude" defaultExclude)).append
    (checkChoice_reports (fun _ _ => OutputFormat.ofName?_eq_some_iff) _ settings "output_format"
      "output_format" .text)).append
    (checkBool_reports settings "show_source" true)).append (checkRules_reports rules)).append
    hgenerator).congr fun label => ?_
  constructor
  · rintro (((((⟨rfl, hno⟩ | ⟨rfl, hno⟩) | ⟨rfl, hno⟩) | ⟨rfl, hno⟩) | ⟨entry, hentry, hrule⟩ | hoption) |
      hwrong)
    · exact .included hno
    · exact .excluded hno
    · exact .outputFormat hno
    · exact .showSource hno
    · exact .rule h hentry hrule
    · exact .option h hoption
    · exact .generator hwrong
  · intro hwrong
    cases hwrong with
    | included hno => exact Or.inl (Or.inl (Or.inl (Or.inl (Or.inl ⟨rfl, hno⟩))))
    | excluded hno => exact Or.inl (Or.inl (Or.inl (Or.inl (Or.inr ⟨rfl, hno⟩))))
    | outputFormat hno => exact Or.inl (Or.inl (Or.inl (Or.inr ⟨rfl, hno⟩)))
    | showSource hno => exact Or.inl (Or.inl (Or.inr ⟨rfl, hno⟩))
    | rule hrules hentry hrule =>
      rw [h] at hrules
      cases hrules
      exact Or.inl (Or.inr (Or.inl ⟨_, hentry, hrule⟩))
    | option hrules hoption =>
      rw [h] at hrules
      cases hrules
      exact Or.inl (Or.inr (Or.inr hoption))
    | generator hwrong => exact Or.inr hwrong

/-! ## Settings that are nested too deeply -/

theorem rulesOf?_eq_some_iff {rules : List (String × Value)} :
    rulesOf? settings = some rules ↔
      lookup "rules" settings = some (.table rules) ∨ lookup "rules" settings = none ∧ rules = [] := by
  unfold rulesOf?
  cases lookup "rules" settings with
  | none => simp [rulesTable?, eq_comm]
  | some v => cases v <;> simp [rulesTable?, Value.table?]

/-- The check for the output format ends at once. -/
theorem isTooDeep_of_choiceTooDeep {limits : PrintLimits}
    (h : choiceTooDeep limits.outputFormat OutputFormat.ofName? settings "output_format" = true) :
    IsTooDeep limits settings := by
  obtain ⟨v, hv, hname, hdeep⟩ := (choiceTooDeep_iff fun _ _ => OutputFormat.ofName?_eq_some_iff).mp h
  exact .outputFormat hv hname hdeep

/-- The checks that end at once, with the rules being a table. -/
theorem isTooDeep_iff {limits : PrintLimits} {rules : List (String × Value)}
    (hrules : rulesOf? settings = some rules) :
    IsTooDeep limits settings ↔
      choiceTooDeep limits.outputFormat OutputFormat.ofName? settings "output_format" = true ∨
        (rules.any (severityTooDeep limits.severity)
          || providerTooDeep limits.provider (lookup "generator" settings)) = true := by
  rw [choiceTooDeep_iff fun _ _ => OutputFormat.ofName?_eq_some_iff, Bool.or_eq_true, List.any_eq_true,
    providerTooDeep_iff]
  constructor
  · intro h
    cases h with
    | outputFormat hv hname hdeep => exact Or.inl ⟨_, hv, hname, hdeep⟩
    | severity hsome hmem hkey hv htext hdeep =>
      rw [hrules] at hsome
      cases hsome
      exact Or.inr (Or.inl ⟨_, hmem, severityTooDeep_iff.mpr ⟨hkey, _, _, rfl, hv, htext, hdeep⟩⟩)
    | provider _ hfields hv hname hdeep => exact Or.inr (Or.inr ⟨_, _, hfields, hv, hname, hdeep⟩)
  · rintro (⟨v, hv, hname, hdeep⟩ | ⟨⟨key, given⟩, hmem, hentry⟩ | ⟨fields, v, hfields, hv, hname, hdeep⟩)
    · exact .outputFormat hv hname hdeep
    · obtain ⟨hkey, fields, v, rfl, hv, htext, hdeep⟩ := severityTooDeep_iff.mp hentry
      exact .severity hrules hmem hkey hv htext hdeep
    · exact .provider (by rw [hrules]; rfl) hfields hv hname hdeep

/-- **Settings with no more levels than the limits allow are not nested too deeply.** -/
theorem not_isTooDeep_of_allow {limits : PrintLimits} (h : limits.Allow (Value.fieldsDepth settings)) :
    ¬IsTooDeep limits settings := by
  have hwithin {v : Value} {limit : Option Nat} (hv : v.depth ≤ Value.fieldsDepth settings)
      (hlimit : limit = limits.outputFormat ∨ limit = limits.severity ∨ limit = limits.provider) :
      ¬v.printsTooDeep limit = true := by
    intro hdeep
    obtain ⟨n, rfl, hlt⟩ := Value.exists_lt_depth_of_printsTooDeep hdeep
    have := h n (by simpa [eq_comm] using hlimit)
    omega
  have htable {key : String} {fields : List (String × Value)}
      (hfields : lookup key settings = some (.table fields)) :
      Value.fieldsDepth fields ≤ Value.fieldsDepth settings := by
    have := Value.depth_le_of_lookup hfields
    rw [Value.depth] at this
    omega
  intro hdeep
  cases hdeep with
  | outputFormat hv _ hdeep => exact hwithin (Value.depth_le_of_lookup hv) (Or.inl rfl) hdeep
  | severity hrules hmem _ hv _ hdeep =>
    refine hwithin ?_ (Or.inr (Or.inl rfl)) hdeep
    rcases rulesOf?_eq_some_iff.mp hrules with hrules | ⟨-, rfl⟩
    · have hrule := Value.depth_le_of_mem hmem
      rw [Value.depth] at hrule
      have := Value.depth_le_of_lookup hv
      have := htable hrules
      omega
    · cases hmem
  | provider _ hfields hv _ hdeep =>
    exact hwithin (Nat.le_trans (Value.depth_le_of_lookup hv) (htable hfields)) (Or.inr (Or.inr rfl)) hdeep

/-! ## Documented settings -/

/-- Whether the settings under one key of the rules are as documented: a severity, or a table with a severity
and the option of the rule. -/
def IsDocumentedRule (entry : String × Value) : Prop :=
  ∃ r : Rule, (entry.1 = r.code ∨ entry.1 = lowerAscii r.code) ∧
    (entry.2.IsSeverity ∨ ∃ fields, entry.2 = .table fields ∧ Fits fields "severity" Value.IsSeverity ∧
      (r = .missingImport → Fits fields "globals" Value.IsNames) ∧
      (r = .nullAccess → Fits fields "allow" Value.IsNames))

/-- Whether the settings of the generator are as documented. -/
structure IsDocumentedGenerator (fields : List (String × Value)) : Prop where
  provider : Fits fields "provider" (Value.IsNameOf Provider.name)
  model : Fits fields "model" Value.IsOptionalText
  baseUrl : Fits fields "base_url" Value.IsOptionalText
  timeout : Fits fields "timeout" fun v => v.IsNumberAboveZero ∧ v ≠ .float .nan
  temperature : Fits fields "temperature" Value.IsNumber
  maxTokens : Fits fields "max_tokens" Value.IsCount

/-- Whether settings are as documented. -/
structure IsDocumented (settings : List (String × Value)) : Prop where
  included : Fits settings "include" Value.IsNames
  excluded : Fits settings "exclude" Value.IsNames
  outputFormat : Fits settings "output_format" (Value.IsNameOf OutputFormat.name)
  showSource : Fits settings "show_source" Value.IsBool
  rules : Fits settings "rules" fun v => ∃ rules, v = .table rules ∧ ∀ entry ∈ rules, IsDocumentedRule entry
  generator : Fits settings "generator" fun v => ∃ fields, v = .table fields ∧ IsDocumentedGenerator fields

theorem Value.IsNames.isList {v : Value} (h : v.IsNames) : v.IsList := by
  obtain ⟨names, rfl⟩ := h
  exact ⟨_, rfl⟩

theorem IsDocumentedRule.not_wrongRule {entry : String × Value} (h : IsDocumentedRule entry)
    (label : String) : ¬WrongRule entry label := by
  obtain ⟨r, hkey, hvalue⟩ := h
  rintro (hno | ⟨-, hs⟩ | ⟨-, hs⟩)
  · exact hno ⟨r, hkey⟩
  · rcases hvalue with hseverity | ⟨fields, hfields, -⟩
    · exact hs hseverity
    · cases hfields
  · rcases hvalue with ⟨s, t, hst, -⟩ | ⟨fields, hfields, hseverity, -⟩
    · cases hst
    · cases hfields
      exact hs hseverity

/-- The option of a documented rule is looked at under the code of this rule only. -/
theorem not_wrongOption_of_isDocumentedRule {rules : List (String × Value)}
    (h : ∀ entry ∈ rules, IsDocumentedRule entry) (label : String) : ¬WrongOption rules label := by
  have hcodes : ∀ r : Rule, ("R2" = r.code ∨ "R2" = lowerAscii r.code → r = .missingImport) ∧
      ("R3" = r.code ∨ "R3" = lowerAscii r.code → r = .nullAccess) := by
    intro r
    cases r <;> decide
  rintro (⟨hlookup, hno⟩ | ⟨hlookup, hno⟩)
  · obtain ⟨r, hkey, ⟨s, t, hst, -⟩ | ⟨fields, hfields, -, hglobals, -⟩⟩ := h _ (mem_of_lookup hlookup)
    · cases hst
    · cases hfields
      exact hno (hglobals ((hcodes r).1 hkey))
  · obtain ⟨r, hkey, ⟨s, t, hst, -⟩ | ⟨fields, hfields, -, -, hallow⟩⟩ := h _ (mem_of_lookup hlookup)
    · cases hst
    · cases hfields
      exact hno (hallow ((hcodes r).2 hkey))

theorem IsDocumentedGenerator.not_wrongGenerator {fields : List (String × Value)}
    (h : IsDocumentedGenerator fields) (label : String) : ¬WrongGenerator fields label := by
  rintro (hno | hno | hno | hno | hno | hno)
  · exact hno h.provider
  · exact hno h.model
  · exact hno h.baseUrl
  · exact hno (h.timeout.mono fun v hv => hv.1)
  · exact hno h.temperature
  · exact hno h.maxTokens

theorem IsDocumented.exists_rules (h : IsDocumented settings) :
    ∃ rules, rulesOf? settings = some rules ∧ ∀ entry ∈ rules, IsDocumentedRule entry := by
  cases hlookup : lookup "rules" settings with
  | none =>
    exact ⟨[], rulesOf?_eq_some_iff.mpr (Or.inr ⟨hlookup, rfl⟩), fun _ he => absurd he List.not_mem_nil⟩
  | some v =>
    obtain ⟨rules, rfl, hrules⟩ := h.rules v hlookup
    exact ⟨rules, rulesOf?_eq_some_iff.mpr (Or.inl hlookup), hrules⟩

/-- **What is documented is not wrong.** -/
theorem not_wrongSetting_of_isDocumented (h : IsDocumented settings) (label : String) :
    ¬WrongSetting settings label := by
  obtain ⟨rules, hrules, hdocumented⟩ := h.exists_rules
  intro hwrong
  cases hwrong with
  | included hno => exact hno (h.included.mono fun _ => Value.IsNames.isList)
  | excluded hno => exact hno (h.excluded.mono fun _ => Value.IsNames.isList)
  | outputFormat hno => exact hno h.outputFormat
  | showSource hno => exact hno h.showSource
  | rule hsome hentry hrule =>
    rw [hrules] at hsome
    cases hsome
    exact (hdocumented _ hentry).not_wrongRule label hrule
  | option hsome hoption =>
    rw [hrules] at hsome
    cases hsome
    exact not_wrongOption_of_isDocumentedRule hdocumented label hoption
  | generator hgenerator =>
    cases hgenerator with
    | noTable hno => exact hno (h.generator.mono fun _ ⟨fields, hfields, _⟩ => ⟨fields, hfields⟩)
    | table hlookup hwrong =>
      obtain ⟨fields, hfields, hdocumented⟩ := h.generator _ hlookup
      cases hfields
      exact hdocumented.not_wrongGenerator label hwrong

theorem IsDocumentedRule.text?_ne_none {key : String} {fields : List (String × Value)} {v : Value}
    (h : IsDocumentedRule (key, .table fields)) (hv : lookup "severity" fields = some v) :
    v.text? ≠ none := by
  obtain ⟨-, -, ⟨s, t, hst, -⟩ | ⟨fields', hfields, hseverity, -⟩⟩ := h
  · cases hst
  · cases hfields
    obtain ⟨s, t, rfl, -⟩ := hseverity v hv
    exact Option.some_ne_none t

/-- **What is documented is not nested too deeply**, as far as it is printed. -/
theorem not_isTooDeep_of_isDocumented (limits : PrintLimits) (h : IsDocumented settings) :
    ¬IsTooDeep limits settings := by
  obtain ⟨rules, hrules, hdocumented⟩ := h.exists_rules
  intro hdeep
  cases hdeep with
  | outputFormat hv hname _ => exact hname (h.outputFormat _ hv)
  | severity hsome hmem _ hv htext _ =>
    rw [hrules] at hsome
    cases hsome
    exact (hdocumented _ hmem).text?_ne_none hv htext
  | provider _ hfields hv hname _ =>
    obtain ⟨fields, hsome, hgenerator⟩ := h.generator _ hfields
    cases hsome
    exact hname (hgenerator.provider _ hv)

/-! ## Outcomes -/

section

variable (path : Option String) {limits : PrintLimits}

/-- The check ends at once if a setting is nested too deeply. -/
theorem ofSettings_of_isTooDeep (h : IsTooDeep limits settings) :
    Config.ofSettings limits path settings = .error .tooDeep := by
  unfold Config.ofSettings
  dsimp only
  split
  · rfl
  · next hformat =>
    cases hrules : rulesOf? settings with
    | none =>
      cases h with
      | outputFormat hv hname hdeep =>
        exact absurd ((choiceTooDeep_iff fun _ _ => OutputFormat.ofName?_eq_some_iff).mpr
          ⟨_, hv, hname, hdeep⟩) hformat
      | severity hsome =>
        rw [hrules] at hsome
        cases hsome
      | provider hsome =>
        rw [hrules] at hsome
        cases hsome
    | some rules =>
      have hdeep := ((isTooDeep_iff hrules).mp h).resolve_left hformat
      rw [rulesOf?] at hrules
      simp only [hrules, hdeep, if_true]

/-- The check ends at once if the rules are no table. -/
theorem ofSettings_of_noTable (hdeep : ¬IsTooDeep limits settings) (hrules : rulesOf? settings = none) :
    Config.ofSettings limits path settings = .error .notATable := by
  unfold Config.ofSettings
  dsimp only
  rw [if_neg fun hformat => hdeep (isTooDeep_of_choiceTooDeep hformat)]
  rw [rulesOf?] at hrules
  rw [hrules]

/-- The outcome if no setting is nested too deeply and the rules are a table: a number has no floating point form,
or else there is a configuration if there are no problems. -/
theorem ofSettings_of_rules {rules : List (String × Value)} (hdeep : ¬IsTooDeep limits settings)
    (hrules : rulesOf? settings = some rules) :
    (IsOutOfRange settings ∧ Config.ofSettings limits path settings = .error .overflow) ∨
      ¬IsOutOfRange settings ∧ ∃ problems, Reports problems (WrongSetting settings) ∧
        ((problems = [] ∧ ∃ c, Config.ofSettings limits path settings = .ok c) ∨
          problems ≠ [] ∧ Config.ofSettings limits path settings = .error (.invalid problems)) := by
  rw [isTooDeep_iff hrules, not_or] at hdeep
  have hreports {ps : List String} (hps : Reports ps (WrongGeneratorSetting settings)) :=
    problems_report hrules hps
  unfold rulesOf? at hrules
  unfold Config.ofSettings
  dsimp only
  rw [if_neg hdeep.1, hrules]
  dsimp only
  rw [if_neg hdeep.2]
  refine (checkGenerator_lookup_cases settings).imp ?_ ?_
  · rintro ⟨hyes, hcheck⟩
    exact ⟨hyes, by rw [hcheck]⟩
  · rintro ⟨hno, g, ps, hcheck, hgenerator⟩
    refine ⟨hno, _, hreports hgenerator, ?_⟩
    rw [hcheck]
    dsimp only
    split
    · next hempty => exact Or.inl ⟨List.isEmpty_iff.mp hempty, _, rfl⟩
    · next hempty => exact Or.inr ⟨fun hnil => hempty (List.isEmpty_iff.mpr hnil), rfl⟩

end

/-- **Settings give a configuration exactly if none of them is wrong.** The check ends at once if a wrong setting
has to be printed and is nested too deeply, if the rules are no table, and if a number has no floating point
form. Else wrong settings are refused with a message that names every one of them, each problem telling of one.
What is documented is not wrong, and only settings with more levels than a limit are nested too deeply. -/
theorem ofSettings_cases (limits : PrintLimits) (path : Option String)
    (settings : List (String × Value)) :
    ((IsTooDeep limits settings ∧ Config.ofSettings limits path settings = .error .tooDeep) ∨
      (¬IsTooDeep limits settings ∧ rulesOf? settings = none ∧
        Config.ofSettings limits path settings = .error .notATable) ∨
      (¬IsTooDeep limits settings ∧ (rulesOf? settings).isSome ∧ IsOutOfRange settings ∧
        Config.ofSettings limits path settings = .error .overflow) ∨
      (¬IsTooDeep limits settings ∧ (rulesOf? settings).isSome ∧ ¬IsOutOfRange settings ∧
        (∀ label, ¬WrongSetting settings label) ∧ ∃ c, Config.ofSettings limits path settings = .ok c) ∨
      (¬IsTooDeep limits settings ∧ (rulesOf? settings).isSome ∧ ¬IsOutOfRange settings ∧
        (∃ label, WrongSetting settings label) ∧
        ∃ problems, Config.ofSettings limits path settings = .error (.invalid problems) ∧
          Reports problems (WrongSetting settings) ∧
          ∀ label, WrongSetting settings label → label.toList <:+: (problemsMessage problems).toList)) ∧
      (IsDocumented settings →
        ¬IsTooDeep limits settings ∧ (rulesOf? settings).isSome ∧ ∀ label, ¬WrongSetting settings label) ∧
      (limits.Allow (Value.fieldsDepth settings) → ¬IsTooDeep limits settings) := by
  refine ⟨?_, fun h => ?_, not_isTooDeep_of_allow⟩
  · by_cases hdeep : IsTooDeep limits settings
    · exact Or.inl ⟨hdeep, ofSettings_of_isTooDeep path hdeep⟩
    right
    cases hrules : rulesOf? settings with
    | none => exact Or.inl ⟨hdeep, rfl, ofSettings_of_noTable path hdeep hrules⟩
    | some rules =>
      right
      rcases ofSettings_of_rules path hdeep hrules with
        ⟨hrange, hover⟩ | ⟨hrange, problems, hreports, ⟨hnil, c, hc⟩ | ⟨hne, herror⟩⟩
      · exact Or.inl ⟨hdeep, rfl, hrange, hover⟩
      · exact Or.inr (Or.inl ⟨hdeep, rfl, hrange, hreports.eq_nil_iff.mp hnil, c, hc⟩)
      · have hwrong : ∃ label, WrongSetting settings label :=
          Classical.byContradiction fun hnone => hne (hreports.eq_nil_iff.mpr (not_exists.mp hnone))
        refine Or.inr (Or.inr ⟨hdeep, rfl, hrange, hwrong, problems, herror, hreports, ?_⟩)
        intro label hlabel
        obtain ⟨p, hp, hfront⟩ := hreports.complete label hlabel
        exact hfront.isInfix.trans (mem_problemsMessage hp)
  · obtain ⟨rules, hrules, -⟩ := h.exists_rules
    rw [hrules]
    exact ⟨not_isTooDeep_of_isDocumented limits h, rfl, not_wrongSetting_of_isDocumented h⟩

/-- Rules that are no table are refused without a message that names them. -/
theorem not_ofSettings_documented :
    ¬∃ limits : PrintLimits, ∀ settings : List (String × Value),
      ((∃ c, Config.ofSettings limits none settings = .ok c) ↔ IsDocumented settings) ∧
        (¬IsDocumented settings →
          ∃ problems, Config.ofSettings limits none settings = .error (.invalid problems)) := by
  rintro ⟨limits, h⟩
  have hno : ¬IsDocumented [("rules", .int 5)] := by
    intro hdocumented
    obtain ⟨rules, hrules, -⟩ := hdocumented.rules (.int 5) rfl
    cases hrules
  have hend : Config.ofSettings limits none [("rules", .int 5)] = .error .notATable := rfl
  obtain ⟨problems, herror⟩ := (h [("rules", .int 5)]).2 hno
  rw [hend] at herror
  cases herror

end PatchLint
