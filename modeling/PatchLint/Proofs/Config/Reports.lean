import PatchLint.Config.Value
import PatchLint.Config.Validate

/-!
# Problems and the settings they tell of

What a setting may be is said here without the checks: a property of values (`Value.IsList`, …) for the value
under a key, if there is one (`Fits`). A check gives problems, and each problem starts with the label of a
setting: the keys on the way to it, with dots between them. Its problems are right if they tell of the labels
of wrong settings and of no others (`Reports`).

* `Reports.append`, `Reports.flatMap` — checks one after the other
* `Reports.eq_nil_iff` — no problem exactly if nothing is wrong
-/

namespace PatchLint

open Json (lookup)

/-! ## Values -/

namespace Value

/-- Whether a value is a list. -/
def IsList (v : Value) : Prop := ∃ items, v = .arr items

/-- Whether a value is a list of texts. -/
def IsNames (v : Value) : Prop := ∃ names : List String, v = .arr (names.map .str)

/-- Whether a value is true or false. -/
def IsBool (v : Value) : Prop := ∃ b, v = .bool b

/-- Whether a value is a text, or null, which counts as no text. -/
def IsOptionalText (v : Value) : Prop := v = .null ∨ ∃ s, v = .str s

/-- Whether a value is the name of something. -/
def IsNameOf {α : Type} (name : α → String) (v : Value) : Prop := ∃ a, v = .str (name a)

/-- Whether a value is the name of a severity, in any case. -/
def IsSeverity (v : Value) : Prop := ∃ (s : Severity) (t : String), v = .str t ∧ lowerAscii t = s.name

/-- Whether a value is a number. -/
def IsNumber (v : Value) : Prop := (∃ n, v = .int n) ∨ ∃ x, v = .float x

/-- Whether a value is a number and not at most zero. -/
def IsNumberAboveZero (v : Value) : Prop :=
  (∃ n, v = .int n ∧ 0 < n) ∨ ∃ x, v = .float x ∧ x.atMostZero = false

/-- Whether a value is a positive integer. -/
def IsCount (v : Value) : Prop := ∃ n, v = .int n ∧ 0 < n

end Value

/-- Whether the setting under a key has a property, if it is given. -/
def Fits (settings : List (String × Value)) (key : String) (P : Value → Prop) : Prop :=
  ∀ v, lookup key settings = some v → P v

variable {settings : List (String × Value)} {key : String} {P Q : Value → Prop}

theorem mem_of_lookup {v : Value} (h : lookup key settings = some v) :
    (key, v) ∈ settings := by
  induction settings with
  | nil => cases h
  | cons entry settings ih =>
    rw [lookup] at h
    split at h
    · next hkey =>
      cases h
      rw [← hkey]
      exact List.mem_cons_self
    · exact List.mem_cons_of_mem _ (ih h)

theorem fits_of_none (h : lookup key settings = none) : Fits settings key P := by
  intro v hv
  rw [h] at hv
  cases hv

theorem fits_iff_of_some {v : Value} (h : lookup key settings = some v) :
    Fits settings key P ↔ P v := by
  simp [Fits, h]

theorem Fits.mono (h : Fits settings key P) (hPQ : ∀ v, P v → Q v) : Fits settings key Q :=
  fun v hv => hPQ v (h v hv)

/-! ## Problems and labels -/

/-- Problems tell of labels: each of the labels starts a problem, and nothing else does. -/
structure Reports (problems : List String) (Wrong : String → Prop) : Prop where
  complete : ∀ label, Wrong label → ∃ p ∈ problems, label.toList <+: p.toList
  sound : ∀ p ∈ problems, ∃ label, Wrong label ∧ label.toList <+: p.toList

namespace Reports

variable {ps qs : List String} {W W' : String → Prop}

theorem nothing (h : ∀ label, ¬W label) : Reports [] W where
  complete label hlabel := absurd hlabel (h label)
  sound _ hp := absurd hp List.not_mem_nil

/-- One label that is wrong, and a text behind it. -/
theorem one {label : String} {wrong : Prop} (h : wrong) (text : String) :
    Reports [label ++ text] fun l => l = label ∧ wrong where
  complete l hl := by
    refine ⟨label ++ text, List.mem_singleton_self _, ?_⟩
    rw [hl.1, String.toList_append]
    exact List.prefix_append _ _
  sound p hp := by
    refine ⟨label, ⟨rfl, h⟩, ?_⟩
    rw [List.mem_singleton.mp hp, String.toList_append]
    exact List.prefix_append _ _

/-- One label that is not wrong. -/
theorem fine {label : String} {right : Prop} (h : right) : Reports [] fun l => l = label ∧ ¬right :=
  nothing fun _ hl => hl.2 h

theorem append (h : Reports ps W) (h' : Reports qs W') :
    Reports (ps ++ qs) fun label => W label ∨ W' label where
  complete label hlabel := by
    rcases hlabel with hlabel | hlabel
    · obtain ⟨p, hp, hfront⟩ := h.complete label hlabel
      exact ⟨p, List.mem_append_left _ hp, hfront⟩
    · obtain ⟨p, hp, hfront⟩ := h'.complete label hlabel
      exact ⟨p, List.mem_append_right _ hp, hfront⟩
  sound p hp := by
    rcases List.mem_append.mp hp with hp | hp
    · obtain ⟨label, hlabel, hfront⟩ := h.sound p hp
      exact ⟨label, Or.inl hlabel, hfront⟩
    · obtain ⟨label, hlabel, hfront⟩ := h'.sound p hp
      exact ⟨label, Or.inr hlabel, hfront⟩

theorem flatMap {α : Type} {items : List α} {problemsOf : α → List String} {W : α → String → Prop}
    (h : ∀ a, Reports (problemsOf a) (W a)) :
    Reports (items.flatMap problemsOf) fun label => ∃ a ∈ items, W a label where
  complete label hlabel := by
    obtain ⟨a, ha, hwrong⟩ := hlabel
    obtain ⟨p, hp, hfront⟩ := (h a).complete label hwrong
    exact ⟨p, List.mem_flatMap.mpr ⟨a, ha, hp⟩, hfront⟩
  sound p hp := by
    obtain ⟨a, ha, hp⟩ := List.mem_flatMap.mp hp
    obtain ⟨label, hlabel, hfront⟩ := (h a).sound p hp
    exact ⟨label, ⟨a, ha, hlabel⟩, hfront⟩

theorem congr (h : Reports ps W) (hW : ∀ label, W label ↔ W' label) : Reports ps W' := by
  have heq : W = W' := funext fun label => propext (hW label)
  rwa [← heq]

/-- **There is no problem exactly if nothing is wrong.** -/
theorem eq_nil_iff (h : Reports ps W) : ps = [] ↔ ∀ label, ¬W label := by
  constructor
  · rintro rfl label hlabel
    obtain ⟨p, hp, -⟩ := h.complete label hlabel
    exact List.not_mem_nil hp
  · intro hnone
    refine List.eq_nil_iff_forall_not_mem.mpr fun p hp => ?_
    obtain ⟨label, hlabel, -⟩ := h.sound p hp
    exact hnone label hlabel

end Reports

end PatchLint
