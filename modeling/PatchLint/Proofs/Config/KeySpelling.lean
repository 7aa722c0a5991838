import Mathlib.Data.List.Nodup
import Mathlib.Tactic.Tauto
import PatchLint.Proofs.Config.Problems

/-!
# How the keys of the rules are spelled

The severity of a rule is read under any spelling of its key, its option only under the code of the rule. So
rewriting all keys of the rules in upper case keeps the severities, and keeps the options exactly of the
rules that were spelled out; a table under another spelling loses its option without a problem.

* `foldl_appliedSeverity_upperKeys`, `ruleProblems_upperKey` — the part that does not depend on the spelling
* `lookup_code_upperKeys`, `lookup_code_eq_none` — what is found under a code
* `checkRules_upperKeys` — the settings of the rules before and after
-/

namespace PatchLint

open Json (lookup)

/-- Settings with their keys in upper case. -/
def upperKeys (settings : List (String × Value)) : List (String × Value) :=
  settings.map fun entry => (upperKey entry.1, entry.2)

variable {settings : List (String × Value)} {rule : Rule}

/-! ## Severities -/

theorem appliedSeverity_upperKey (severity : Rule → Severity) (entry : String × Value) :
    appliedSeverity severity (upperKey entry.1, entry.2) = appliedSeverity severity entry := by
  have hgiven : (ruleSeverity? (upperKey entry.1) entry.2).bind (·.2) =
      (ruleSeverity? entry.1 entry.2).bind (·.2) := by
    cases entry.2 with
    | table fields => simp only [ruleSeverity?, Option.bind_map, Function.comp_def]
    | _ => rfl
  unfold appliedSeverity
  dsimp only
  rw [ruleOfKey?_upperKey, hgiven]

/-- **The severities do not depend on the spelling.** -/
theorem foldl_appliedSeverity_upperKeys (severity : Rule → Severity)
    (settings : List (String × Value)) :
    (upperKeys settings).foldl appliedSeverity severity = settings.foldl appliedSeverity severity := by
  rw [upperKeys, List.foldl_map]
  simp only [appliedSeverity_upperKey]

theorem isRuleKey_upperKey (key : String) : IsRuleKey (upperKey key) ↔ IsRuleKey key := by
  rw [← not_iff_not, ← ruleOfKey?_eq_none_iff, ← ruleOfKey?_eq_none_iff, ruleOfKey?_upperKey]

/-- What is wrong under one key is wrong under each that names a rule or none, as the first does. -/
theorem WrongRule.exists_respelled {key key' label : String} {v : Value} (h : WrongRule (key, v) label)
    (hkey : IsRuleKey key' ↔ IsRuleKey key) : ∃ label', WrongRule (key', v) label' := by
  cases h with
  | key hno => exact ⟨_, .key fun hyes => hno (hkey.mp hyes)⟩
  | severity hyes hs => exact ⟨_, .severity (hkey.mpr hyes) hs⟩
  | tableSeverity hyes hs => exact ⟨_, .tableSeverity (hkey.mpr hyes) hs⟩

theorem ruleProblems_upperKey (entry : String × Value) :
    ruleProblems (upperKey entry.1, entry.2) = [] ↔ ruleProblems entry = [] := by
  rw [(ruleProblems_reports _).eq_nil_iff, (ruleProblems_reports _).eq_nil_iff]
  have hkey := isRuleKey_upperKey entry.1
  constructor
  · intro hnone label hlabel
    obtain ⟨label', hlabel'⟩ := hlabel.exists_respelled hkey
    exact hnone label' hlabel'
  · intro hnone label hlabel
    obtain ⟨label', hlabel'⟩ := hlabel.exists_respelled hkey.symm
    exact hnone label' hlabel'

theorem flatMap_ruleProblems_upperKeys (settings : List (String × Value)) :
    (upperKeys settings).flatMap ruleProblems = [] ↔ settings.flatMap ruleProblems = [] := by
  rw [upperKeys, List.flatMap_map, List.flatMap_eq_nil_iff, List.flatMap_eq_nil_iff]
  exact forall₂_congr fun entry _ => ruleProblems_upperKey entry

/-! ## Options -/

/-- Whether the key of a rule, if there is one, is the code of the rule. -/
def IsSpelledOut (settings : List (String × Value)) (rule : Rule) : Prop :=
  ∀ entry ∈ settings, ruleOfKey? entry.1 = some rule → entry.1 = rule.code

/-- Whether an option of a rule that is given under another spelling is no list of names. -/
def HidesWrongOption (settings : List (String × Value)) (rule : Rule) (option : String) : Prop :=
  ∃ key fields, (key, .table fields) ∈ settings ∧ ruleOfKey? key = some rule ∧ key ≠ rule.code ∧
    ¬Fits fields option Value.IsNames

theorem lookup_code_cons (entry : String × Value) (settings : List (String × Value)) (rule : Rule) :
    lookup rule.code (upperKeys (entry :: settings)) =
      if ruleOfKey? entry.1 = some rule then some entry.2 else lookup rule.code (upperKeys settings) := by
  rw [upperKeys, List.map_cons, lookup]
  simp only [ruleOfKey?_eq_some_iff_upperKey]
  rfl

/-- **A rule that is spelled out is found as before.** -/
theorem lookup_code_upperKeys (h : IsSpelledOut settings rule) :
    lookup rule.code (upperKeys settings) = lookup rule.code settings := by
  induction settings with
  | nil => rfl
  | cons entry settings ih =>
    obtain ⟨key, v⟩ := entry
    have hrest := ih fun e he => h e (List.mem_cons_of_mem _ he)
    rw [lookup_code_cons, lookup, hrest]
    have hcode : ruleOfKey? key = some rule ↔ key = rule.code :=
      ⟨h (key, v) List.mem_cons_self, fun hkey => ruleOfKey?_eq_some_iff.mpr (Or.inl hkey)⟩
    simp only [hcode]

/-- The keys name different rules if they are different in upper case. -/
theorem eq_of_ruleOfKey? (h : ((upperKeys settings).map (·.1)).Nodup) {entry entry' : String × Value}
    (hmem : entry ∈ settings) (hmem' : entry' ∈ settings) (hrule : ruleOfKey? entry.1 = some rule)
    (hrule' : ruleOfKey? entry'.1 = some rule) : entry = entry' := by
  rw [upperKeys, List.map_map] at h
  refine List.inj_on_of_nodup_map h hmem hmem' ?_
  exact (ruleOfKey?_eq_some_iff_upperKey.mp hrule).trans (ruleOfKey?_eq_some_iff_upperKey.mp hrule').symm

/-- **Nothing is found under a code if the rule is spelled in another way.** -/
theorem lookup_code_eq_none (h : ((upperKeys settings).map (·.1)).Nodup)
    (hspelled : ¬IsSpelledOut settings rule) : lookup rule.code settings = none := by
  refine Option.eq_none_iff_forall_ne_some.mpr fun v hv => hspelled fun entry hmem hrule => ?_
  have hcode : ruleOfKey? rule.code = some rule := ruleOfKey?_eq_some_iff.mpr (Or.inl rfl)
  have heq := eq_of_ruleOfKey? h hmem (mem_of_lookup hv) hrule hcode
  rw [heq]

theorem lookup_code_upperKeys_eq_some_iff (h : ((upperKeys settings).map (·.1)).Nodup) {v : Value} :
    lookup rule.code (upperKeys settings) = some v ↔
      ∃ key, (key, v) ∈ settings ∧ ruleOfKey? key = some rule := by
  constructor
  · intro hv
    obtain ⟨entry, hmem, heq⟩ := List.mem_map.mp (mem_of_lookup hv)
    obtain ⟨hkey, rfl⟩ := Prod.mk.inj heq
    exact ⟨entry.1, hmem, ruleOfKey?_eq_some_iff_upperKey.mpr hkey⟩
  · rintro ⟨key, hmem, hrule⟩
    induction settings with
    | nil => cases hmem
    | cons entry settings ih =>
      rw [lookup_code_cons]
      by_cases hentry : ruleOfKey? entry.1 = some rule
      · rw [if_pos hentry, eq_of_ruleOfKey? h List.mem_cons_self hmem hentry hrule]
      · rw [if_neg hentry]
        have hnodup := (List.nodup_cons.mp h).2
        rcases List.mem_cons.mp hmem with rfl | hmem
        · exact absurd hrule hentry
        · exact ih hnodup hmem

/-- What becomes of an option: it is kept if its rule is spelled out, and otherwise left out. -/
theorem checkRuleOption_upperKeys (h : ((upperKeys settings).map (·.1)).Nodup) (rule : Rule)
    (option : String) :
    (IsSpelledOut settings rule →
      checkRuleOption settings rule option = checkRuleOption (upperKeys settings) rule option) ∧
    (¬IsSpelledOut settings rule → checkRuleOption settings rule option = ([], [])) := by
  constructor
  · intro hspelled
    rw [checkRuleOption, checkRuleOption, lookup_code_upperKeys hspelled]
  · intro hspelled
    rw [checkRuleOption, lookup_code_eq_none h hspelled]

/-- The problems with an option after its key is upper-cased: those before and those that were hidden. -/
theorem checkRuleOption_upperKeys_eq_nil_iff (h : ((upperKeys settings).map (·.1)).Nodup) (rule : Rule)
    (option : String) :
    (checkRuleOption (upperKeys settings) rule option).2 = [] ↔
      (checkRuleOption settings rule option).2 = [] ∧ ¬HidesWrongOption settings rule option := by
  have hraised : (checkRuleOption (upperKeys settings) rule option).2 = [] ↔
      ¬IsOptionWrong (upperKeys settings) rule option := by
    simp [(checkRuleOption_reports _ _ _).eq_nil_iff]
  have hwrong : IsOptionWrong (upperKeys settings) rule option ↔
      ∃ key fields, (key, .table fields) ∈ settings ∧ ruleOfKey? key = some rule ∧
        ¬Fits fields option Value.IsNames := by
    simp only [IsOptionWrong, lookup_code_upperKeys_eq_some_iff h]
    constructor
    · rintro ⟨fields, ⟨key, hmem, hrule⟩, hfits⟩
      exact ⟨key, fields, hmem, hrule, hfits⟩
    · rintro ⟨key, fields, hmem, hrule, hfits⟩
      exact ⟨fields, ⟨key, hmem, hrule⟩, hfits⟩
  obtain ⟨hkept, hdropped⟩ := checkRuleOption_upperKeys h rule option
  by_cases hspelled : IsSpelledOut settings rule
  · rw [hkept hspelled, iff_self_and]
    rintro - ⟨key, fields, hmem, hrule, hne, -⟩
    exact hne (hspelled _ hmem hrule)
  · rw [hdropped hspelled, hraised, hwrong, eq_self, true_and, not_iff_not]
    constructor
    · rintro ⟨key, fields, hmem, hrule, hfits⟩
      refine ⟨key, fields, hmem, hrule, ?_, hfits⟩
      rintro rfl
      refine hspelled fun entry hentry hrule' => ?_
      rw [eq_of_ruleOfKey? h hentry hmem hrule' hrule]
    · rintro ⟨key, fields, hmem, hrule, -, hfits⟩
      exact ⟨key, fields, hmem, hrule, hfits⟩

/-! ## All settings of the rules -/

/-- **Upper-casing the keys keeps the severities; it brings back the options of the rules that were not
spelled out.** Before, these options are empty, and nothing is reported if one of them is no list of names. -/
theorem checkRules_upperKeys {settings : List (String × Value)}
    (h : ((upperKeys settings).map (·.1)).Nodup) :
    let given := checkRules settings
    let raised := checkRules (upperKeys settings)
    given.1.severity = raised.1.severity ∧
      (IsSpelledOut settings .missingImport → given.1.globals = raised.1.globals) ∧
      (¬IsSpelledOut settings .missingImport → given.1.globals = []) ∧
      (IsSpelledOut settings .nullAccess → given.1.allow = raised.1.allow) ∧
      (¬IsSpelledOut settings .nullAccess → given.1.allow = []) ∧
      (raised.2 = [] ↔ given.2 = [] ∧ ¬HidesWrongOption settings .missingImport "globals" ∧
        ¬HidesWrongOption settings .nullAccess "allow") := by
  intro given raised
  have hgiven : given.2 = settings.flatMap ruleProblems ++
      (checkRuleOption settings .missingImport "globals").2 ++
      (checkRuleOption settings .nullAccess "allow").2 := by
    simp only [given, checkRules, foldl_checkRule, List.nil_append]
  have hraised : raised.2 = (upperKeys settings).flatMap ruleProblems ++
      (checkRuleOption (upperKeys settings) .missingImport "globals").2 ++
      (checkRuleOption (upperKeys settings) .nullAccess "allow").2 := by
    simp only [raised, checkRules, foldl_checkRule, List.nil_append]
  have hseverity : given.1.severity = raised.1.severity := by
    simp only [given, raised, checkRules, foldl_checkRule, foldl_appliedSeverity_upperKeys]
  obtain ⟨hglobals, hnoGlobals⟩ := checkRuleOption_upperKeys h .missingImport "globals"
  obtain ⟨hallow, hnoAllow⟩ := checkRuleOption_upperKeys h .nullAccess "allow"
  refine ⟨hseverity, fun hs => congrArg (·.1) (hglobals hs), fun hs => congrArg (·.1) (hnoGlobals hs),
    fun hs => congrArg (·.1) (hallow hs), fun hs => congrArg (·.1) (hnoAllow hs), ?_⟩
  rw [hgiven, hraised]
  simp only [List.append_eq_nil_iff, flatMap_ruleProblems_upperKeys,
    checkRuleOption_upperKeys_eq_nil_iff h]
  tauto

/-- A rule that is spelled out keeps its option, one that is not loses it and keeps its severity. -/
theorem checkRules_upperKeys_mixed :
    let settings : List (String × Value) :=
      [("r1", .str "off"), ("R2", .table [("globals", .arr [.str "describe"])]),
        ("r3", .table [("severity", .str "error"), ("allow", .arr [.str "window"])])]
    let given := checkRules settings
    let raised := checkRules (upperKeys settings)
    ((upperKeys settings).map (·.1)).Nodup ∧ given.1.severity = raised.1.severity ∧
      given.1.severity .nullAccess = .error ∧ given.1.globals = ["describe"] ∧
      raised.1.globals = ["describe"] ∧ given.1.allow = [] ∧ raised.1.allow = ["window"] ∧
      given.2 = [] ∧ raised.2 = [] := by
  intro settings given raised
  have hnodup : ((upperKeys settings).map (·.1)).Nodup := by decide +kernel
  have hglobals : IsSpelledOut settings .missingImport := by
    unfold IsSpelledOut
    decide +kernel
  have hallow : ¬IsSpelledOut settings .nullAccess := by
    unfold IsSpelledOut
    decide +kernel
  have hraised : raised.1.globals = ["describe"] ∧ raised.1.allow = ["window"] ∧ raised.2 = [] := by
    decide +kernel
  obtain ⟨hseverity, hkept, -, -, hdropped, hproblems⟩ := checkRules_upperKeys hnodup
  exact ⟨hnodup, hseverity, by decide +kernel, (hkept hglobals).trans hraised.1, hraised.1, hdropped hallow,
    hraised.2.1, (hproblems.mp hraised.2.2).1, hraised.2.2⟩

/-- The names under a code in small letters are lost, and nothing says so. -/
theorem not_checkRules_eq_of_nodup :
    ¬∀ settings : List (String × Value), ((upperKeys settings).map (·.1)).Nodup →
      (checkRules settings).1.severity = (checkRules (upperKeys settings)).1.severity ∧
        (checkRules settings).1.globals = (checkRules (upperKeys settings)).1.globals ∧
        (checkRules settings).1.allow = (checkRules (upperKeys settings)).1.allow ∧
        ((checkRules settings).2 = [] ↔ (checkRules (upperKeys settings)).2 = []) := by
  intro h
  have hlost := (h [("r2", .table [("globals", .arr [.str "describe"])])] (by decide +kernel)).2.1
  exact absurd hlost (by decide +kernel)

end PatchLint
