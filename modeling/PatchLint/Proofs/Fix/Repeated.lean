import PatchLint.Proofs.Fix.KeptRun

/-!
# Fixing again

Fixing a source again changes nothing if the first run has stopped by itself: because there was nothing
left to fix, or because the next fix was discarded. A run may also stop because it has made as many
attempts as the source had findings. As deleting a line can bring new findings, there may be more to
fix then.

* `fixAll_eq_self_iff` — fixing leaves a text alone exactly if no fix of it is kept
* `fixAll_fixAll_eq_iff` — when fixing again changes nothing
* `fixAll_fixAll_ne` — a source that is fixed in two runs
-/

namespace PatchLint

variable {parser : Parser} {c : RuleConfig} {language : Language}

/-- A text of which a fix is kept has a finding. -/
theorem KeptFix.findings_ne_nil {d next : Draft} {a : Attempt}
    (h : KeptFix parser c language d a next) : d.findings ≠ [] := by
  intro hnil
  have htarget := h.target
  rw [hnil] at htarget
  cases htarget

/-- **Fixing leaves a text alone exactly if no fix of it is kept.** -/
theorem fixAll_eq_self_iff {source : Text} :
    fixAll parser c language source = source ↔
      IsFinished parser c language (Draft.ofSource parser c language source) := by
  constructor
  · intro hself a next hfix
    obtain ⟨last, hrun, htext, -, hstop⟩ := exists_keptRun parser c language
      (analyze parser c language source).length (Draft.ofSource parser c language source)
    have htext : last.text = source := htext.symm.trans hself
    -- a text that has not become shorter has not lost a line
    have hlength := hrun.length_add_le
    rw [htext] at hlength
    have hnone : (fixRunFrom parser c language (analyze parser c language source).length
        (Draft.ofSource parser c language source)).kept.length = 0 :=
      Nat.le_zero.mp (Nat.add_le_add_iff_left.mp hlength)
    have hpos : 0 < (analyze parser c language source).length :=
      List.length_pos_iff.mpr hfix.findings_ne_nil
    have hlast := hrun.eq_ofSource
    rw [htext] at hlast
    rw [hnone, hlast] at hstop
    exact hstop hpos a next hfix
  · intro hfinished
    exact (fixRunFrom_of_isFinished hfinished _).2

/-- **When fixing again changes nothing.** It changes the text exactly if the first run has kept as many
fixes as the source had findings, so that it had to stop there, and one more would be kept. -/
theorem fixAll_fixAll_eq_iff (parser : Parser) (c : RuleConfig) (language : Language)
    (source : Text) :
    let fixed := fixAll parser c language source
    fixAll parser c language fixed = fixed ↔
      ¬((fixRun parser c language source).kept.length = (analyze parser c language source).length ∧
        ∃ a next, KeptFix parser c language (Draft.ofSource parser c language fixed) a next) := by
  intro fixed
  obtain ⟨last, hrun, htext, hle, hstop⟩ := exists_keptRun parser c language
    (analyze parser c language source).length (Draft.ofSource parser c language source)
  have hlast : last = Draft.ofSource parser c language fixed := by
    rw [hrun.eq_ofSource, ← htext]
    rfl
  rw [hlast] at hstop
  rw [fixAll_eq_self_iff]
  constructor
  · rintro hfinished ⟨-, a, next, hfix⟩
    exact hfinished a next hfix
  · intro hnot a next hfix
    rcases Nat.lt_or_eq_of_le hle with hlt | heq
    · exact hstop hlt a next hfix
    · exact hnot ⟨heq, a, next, hfix⟩

/-- A parser of two imports, the second of which is used only on the line of the first. -/
def dependentImports : Parser :=
  shortParser
    [("import a from 'a'; b();\nimport b from 'b';\n",
        [shortImport 0, shortCall 19 1, shortImport 24]),
     ("import b from 'b';\n", [shortImport 0]), ("", [])]

/-- The use of the second import goes with the first one, but only one finding was there at the start.
So the second import is found unused when the run has come to its end. -/
theorem fixAll_fixAll_ne :
    let source := "import a from 'a'; b();\nimport b from 'b';\n".toList
    let fixed := fixAll dependentImports {} .js source
    fixed = "import b from 'b';\n".toList ∧ fixAll dependentImports {} .js fixed = [] ∧
      fixAll dependentImports {} .js fixed ≠ fixed := by
  decide +kernel

end PatchLint
