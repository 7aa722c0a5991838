import PatchLint.Command.Run
import PatchLint.Proofs.Files.Writing
import PatchLint.Proofs.Fix.LineCuts
import PatchLint.Proofs.Run.Agreement
import PatchLint.Proofs.Run.Reading

/-!
# The bytes of fixed files

Fixing by the rules reads every source, fixes its text, and writes the text back if it has changed. What a
file holds afterwards depends only on what it held before (`rewritten`).

* `changes_fixFiles_ruleBased` — each file changes by itself
* `root_fix` — the command writes these changes and no others
* `exists_readBytes_fix` — so a file that is looked at holds `rewritten` of its bytes, and every other file
  holds what it held
* `fix_cuts_lines` — and a file that has changed has lost lines. Reading turns every line end into a
  newline, so it has lost its carriage returns too (`fix_loses_returns`).
-/

namespace PatchLint

variable {parser : Parser} {c : Config} {root : FileTree}

/-! ## One file -/

/-- The bytes of a file after its text has been fixed. -/
def rewritten (parser : Parser) (c : RuleConfig) (language : Language) (bytes : List UInt8) :
    List UInt8 :=
  match Utf8.decode bytes with
  | .error _ => bytes
  | .ok t =>
    let source := Text.normalize t
    let fixed := fixAll parser c language source
    if fixed = source then bytes else Utf8.encode fixed

/-- How a file changes by the rules, if it does. -/
def changeOf? (parser : Parser) (c : Config) (root : FileTree) (file : Path) : Option FileChange :=
  match root.readText file with
  | .error _ => none
  | .ok source =>
    let fixed := fixAll parser c.rules (sourceLanguage file) source
    if fixed = source then none else some ⟨file, source, fixed⟩

/-- A source without a tree stays as it is. -/
theorem fixAll_of_parse_error {rules : RuleConfig} {language : Language} {source : Text}
    {fault : SyntaxFault} (h : parse parser language source = .error fault) :
    fixAll parser rules language source = source := by
  have hfindings : analyze parser rules language source = [] := by rw [analyze, h]
  rw [fixAll, fixRun, hfindings]
  rfl

theorem change?_ruleBased (reading : SourceReading) (run : FixRun) :
    (⟨reading, .ruleBased run⟩ : FileFix).change?
      = if run.text = reading.source then none else some (reading.source, run.text) := rfl

/-- **A file that is worked on changes by itself.** -/
theorem exists_fixFile_ruleBased {σ : Type} (parser : Parser) (c : Config) (root : FileTree)
    (file : Path) (state : σ) :
    ∃ f, fixFile parser c root .ruleBased (readSource parser root ⟨.root, []⟩ file none) state
        = (.ok f, state) ∧
      (f.change?.map fun (old, new) => (⟨f.reading.file, old, new⟩ : FileChange))
        = changeOf? parser c root file := by
  rw [readSource, readText_join, changeOf?]
  cases root.readText file with
  | error fault => exact ⟨_, fixFile_skipped rfl _ _, rfl⟩
  | ok source =>
    dsimp only [Option.none_or]
    rw [← sourceLanguage, parseSource_eq]
    cases hparse : parse parser (sourceLanguage file) source with
    | error fault =>
      rw [if_pos (fixAll_of_parse_error hparse)]
      exact ⟨_, fixFile_skipped rfl _ _, rfl⟩
    | ok tree =>
      refine ⟨_, fixFile_ruleBased rfl _, ?_⟩
      rw [change?_ruleBased, ← fixAll]
      dsimp only
      by_cases hsame : fixAll parser c.rules (sourceLanguage file) source = source
      · rw [if_pos hsame, if_pos hsame]
        rfl
      · rw [if_neg hsame, if_neg hsame, Option.map_some]

/-- **Each file changes by itself,** and the work does not break off. -/
theorem changes_fixFiles_ruleBased {σ : Type} (parser : Parser) (c : Config) (root : FileTree)
    (files : List Path) (state : σ) :
    (fixFiles parser c root .ruleBased files state).broken = none ∧
      (fixFiles parser c root .ruleBased files state).changes
        = files.filterMap (changeOf? parser c root) := by
  induction files with
  | nil => exact ⟨rfl, rfl⟩
  | cons file files ih =>
    obtain ⟨f, hf, hchange⟩ := exists_fixFile_ruleBased parser c root file state
    rw [fixFiles_cons hf]
    refine ⟨ih.1, ?_⟩
    rw [changes_cons, hchange, ih.2, List.filterMap_cons]
    cases changeOf? parser c root file with
    | none => rfl
    | some change => rfl

/-! ## Bytes -/

theorem file_of_changeOf? {file : Path} {change : FileChange}
    (h : changeOf? parser c root file = some change) :
    change.file = file ∧ ∃ bytes, root.readBytes file = .ok bytes := by
  rw [changeOf?, FileTree.readText] at h
  cases hread : root.readBytes file with
  | error fault => rw [hread] at h; cases h
  | ok bytes =>
    refine ⟨?_, bytes, rfl⟩
    rw [hread] at h
    dsimp only at h
    cases hdecode : Utf8.decode bytes with
    | error e => rw [hdecode] at h; cases h
    | ok t =>
      rw [hdecode] at h
      dsimp only at h
      split at h
      · cases h
      · cases h
        rfl

/-- **A changed text is encoded, and a file without a change keeps its bytes.** -/
theorem rewritten_of_readBytes {file : Path} {bytes : List UInt8}
    (h : root.readBytes file = .ok bytes) :
    rewritten parser c.rules (sourceLanguage file) bytes
      = ((changeOf? parser c root file).map fun change => Utf8.encode change.new).getD bytes := by
  rw [changeOf?, FileTree.readText, h, rewritten]
  dsimp only
  cases Utf8.decode bytes with
  | error e => rfl
  | ok t =>
    dsimp only
    by_cases hsame : fixAll parser c.rules (sourceLanguage file) (Text.normalize t)
        = Text.normalize t
    · rw [if_pos hsame, if_pos hsame]
      rfl
    · rw [if_neg hsame, if_neg hsame, Option.map_some, Option.getD_some]

theorem normalize_of_not_mem {t : Text} (h : '\r' ∉ t) : Text.normalize t = t := by
  fun_induction Text.normalize t with
  | case1 => rfl
  | case2 cs ih => exact absurd List.mem_cons_self h
  | case3 c cs _ ih =>
    have hc : c ≠ '\r' := fun e => h (e ▸ List.mem_cons_self)
    rw [if_neg hc, ih fun hmem => h (List.mem_cons_of_mem _ hmem)]

/-- Bytes without carriage returns are those of a text that is read as it is. -/
theorem encode_normalize_of_decode {bytes : List UInt8} {t : Text} (h : Utf8.decode bytes = .ok t)
    (hreturn : 0x0D ∉ bytes) : Utf8.encode (Text.normalize t) = bytes := by
  have hencode := Utf8.encode_of_decode h
  rw [normalize_of_not_mem, hencode]
  intro hmem
  rw [← hencode] at hreturn
  exact hreturn ((Utf8.byte_mem_encode_iff (c := '\r') (by decide)).mpr hmem)

/-- **A file that is rewritten holds the text that was read without some lines,** and no carriage
return. -/
theorem linesCut_of_rewritten_ne {rules : RuleConfig} {language : Language} {bytes : List UInt8}
    (h : rewritten parser rules language bytes ≠ bytes) :
    0x0D ∉ rewritten parser rules language bytes ∧
      ∃ t, Utf8.decode bytes = .ok t ∧
        LinesCut (Utf8.encode (Text.normalize t)) (rewritten parser rules language bytes) := by
  rw [rewritten] at h ⊢
  cases hdecode : Utf8.decode bytes with
  | error e =>
    rw [hdecode] at h
    exact absurd rfl h
  | ok t =>
    rw [hdecode] at h
    dsimp only at h ⊢
    by_cases hsame : fixAll parser rules language (Text.normalize t) = Text.normalize t
    · rw [if_pos hsame] at h
      exact absurd rfl h
    · rw [if_neg hsame]
      have hcut := linesCut_fixAll parser rules language (Text.normalize t)
      refine ⟨fun hmem => Text.not_mem_normalize t ?_, t, rfl, hcut⟩
      exact (Utf8.byte_mem_encode_iff (c := '\r') (by decide)).mp (hcut.sublist.subset hmem)

/-- Without carriage returns it holds what it held without some lines. -/
theorem linesCut_rewritten (parser : Parser) (rules : RuleConfig) (language : Language)
    {bytes : List UInt8} (hreturn : 0x0D ∉ bytes) :
    LinesCut bytes (rewritten parser rules language bytes) := by
  by_cases hsame : rewritten parser rules language bytes = bytes
  · rw [hsame]
    exact LinesCut.refl bytes
  · obtain ⟨-, t, hdecode, hcut⟩ := linesCut_of_rewritten_ne hsame
    rwa [encode_normalize_of_decode hdecode hreturn] at hcut

/-! ## The command -/

/-- What is written for a change. -/
def FileChange.item (change : FileChange) : Path × List UInt8 :=
  (change.file, Utf8.encode change.new)

/-- **The command writes the changes of the files that it looks at.** -/
theorem root_fix (s : Session) (parser : Parser) (c : Config) (threshold : LogLevel)
    (paths : List Path) :
    (s.runCommand parser c threshold (.fix paths .write false)).session.root
      = match scanWithin s.limits.directories s.root s.cwd c paths with
        | .error _ => s.root
        | .ok files =>
          s.root.writeAll ((files.filterMap (changeOf? parser c s.root)).map FileChange.item) := by
  rw [Session.runCommand, Session.runFix, if_neg Bool.false_ne_true, Session.fixWith, Session.scanThen,
    scanWithin, scan]
  cases paths.findSome? (obstacle? s.limits.directories s.root s.cwd) with
  | some cause => rfl
  | none =>
  dsimp only
  cases surveyFault? (survey s.root s.cwd c paths) with
  | some fault => rfl
  | none =>
    dsimp only [Except.mapError]
    obtain ⟨hbroken, hchanges⟩ := changes_fixFiles_ruleBased parser c s.root
      (includedFiles (decided (survey s.root s.cwd c paths))) s.network
    rw [hbroken, hchanges, FileTree.writeAll, List.foldl_map]
    rfl

theorem sourceLanguage_congr {p q : Path} (h : p.parts = q.parts) :
    sourceLanguage p = sourceLanguage q := by
  unfold sourceLanguage languageOf? Path.suffix Path.name
  rw [h]

/-- **What a file holds afterwards.** -/
theorem exists_readBytes_fix {s : Session} {paths files : List Path}
    (hscan : scanWithin s.limits.directories s.root s.cwd c paths = .ok files) {p : Path} {bytes : List UInt8}
    (h : s.root.readBytes p = .ok bytes) (parser : Parser) (threshold : LogLevel) :
    ∃ bytes', (s.runCommand parser c threshold (.fix paths .write false)).session.root.readBytes p
        = .ok bytes' ∧
      ((∀ file ∈ files, file.parts ≠ FileTree.placeOf p) → bytes' = bytes) ∧
      ∀ file ∈ files, file.parts = FileTree.placeOf p →
        bytes' = rewritten parser c.rules (sourceLanguage file) bytes := by
  rw [root_fix, hscan]
  dsimp only
  have hfiles : ∀ item ∈ (files.filterMap (changeOf? parser c s.root)).map FileChange.item,
      ∃ old, s.root.readBytes item.1 = .ok old := by
    intro item hitem
    obtain ⟨change, hchange, rfl⟩ := List.mem_map.mp hitem
    obtain ⟨file, -, hfile⟩ := List.mem_filterMap.mp hchange
    obtain ⟨rfl, old, hold⟩ := file_of_changeOf? hfile
    exact ⟨old, hold⟩
  obtain ⟨bytes', hread, hcases⟩ := FileTree.exists_readBytes_writeAll hfiles h
  refine ⟨bytes', hread, ?_⟩
  rcases hcases with ⟨hnone, rfl⟩ | ⟨item, hitem, hparts, rfl⟩
  · -- nothing was written there, so no file there changes
    refine ⟨fun _ => rfl, fun file hfile hparts => ?_⟩
    rw [rewritten_of_readBytes (FileTree.readBytes_of_parts_eq h hparts)]
    cases hchange : changeOf? parser c s.root file with
    | none => rfl
    | some change =>
      have hne : change.file.parts ≠ FileTree.placeOf p :=
        hnone _ (List.mem_map_of_mem (List.mem_filterMap.mpr ⟨file, hfile, hchange⟩))
      rw [(file_of_changeOf? hchange).1] at hne
      exact absurd hparts hne
  · -- what was written is the change of a file that can be read there
    obtain ⟨change, hchange, rfl⟩ := List.mem_map.mp hitem
    obtain ⟨file, hfile, hchange⟩ := List.mem_filterMap.mp hchange
    obtain ⟨rfl, -⟩ := file_of_changeOf? hchange
    have hparts : change.file.parts = FileTree.placeOf p := hparts
    refine ⟨fun hnone => absurd hparts (hnone _ hfile), fun other _ hother => ?_⟩
    rw [sourceLanguage_congr (hother.trans hparts.symm),
      rewritten_of_readBytes (FileTree.readBytes_of_parts_eq h hparts), hchange]
    rfl

/-- **Fixing cuts lines out of files.** Without carriage returns a file keeps all bytes but those of the
lines cut out; with them, a file that changes has lost them all, and is cut out of the text that was
read. Files that are not looked at stay as they are. -/
theorem fix_cuts_lines (s : Session) (parser : Parser) (c : Config) (threshold : LogLevel)
    (paths : List Path) {p : Path} {bytes : List UInt8} (h : s.root.readBytes p = .ok bytes) :
    ∃ bytes', (s.runCommand parser c threshold (.fix paths .write false)).session.root.readBytes p
        = .ok bytes' ∧
      (0x0D ∉ bytes → LinesCut bytes bytes') ∧
      (bytes' ≠ bytes → 0x0D ∉ bytes' ∧
        ∃ t, Utf8.decode bytes = .ok t ∧ LinesCut (Utf8.encode (Text.normalize t)) bytes') ∧
      ∀ files, scanWithin s.limits.directories s.root s.cwd c paths = .ok files →
        ((∀ file ∈ files, file.parts ≠ FileTree.placeOf p) → bytes' = bytes) ∧
        ∀ file ∈ files, file.parts = FileTree.placeOf p →
          bytes' = rewritten parser c.rules (sourceLanguage file) bytes := by
  cases hscan : scanWithin s.limits.directories s.root s.cwd c paths with
  | error fault =>
    refine ⟨bytes, ?_, fun _ => LinesCut.refl bytes, fun hne => absurd rfl hne, ?_⟩
    · rw [root_fix, hscan]
      exact h
    · intro files hfiles
      cases hfiles
  | ok files =>
    obtain ⟨bytes', hread, hother, hlooked⟩ := exists_readBytes_fix hscan h parser threshold
    have hbytes : bytes' = bytes ∨ ∃ language, bytes' = rewritten parser c.rules language bytes := by
      by_cases hfile : ∃ file ∈ files, file.parts = FileTree.placeOf p
      · obtain ⟨file, hfile, hparts⟩ := hfile
        exact Or.inr ⟨_, hlooked file hfile hparts⟩
      · exact Or.inl (hother fun file hmem hparts => hfile ⟨file, hmem, hparts⟩)
    refine ⟨bytes', hread, fun hreturn => ?_, fun hne => ?_, ?_⟩
    · rcases hbytes with rfl | ⟨language, rfl⟩
      · exact LinesCut.refl bytes'
      · exact linesCut_rewritten parser c.rules language hreturn
    · obtain ⟨language, rfl⟩ := hbytes.resolve_left hne
      exact linesCut_of_rewritten_ne hne
    · rintro _ ⟨⟩
      exact ⟨hother, hlooked⟩

/-! ## Two projects -/

/-- A project of one file, beside an empty directory. -/
def projectOf (source : String) : Session where
  root := .directory [("lib", .empty), ("a.js", .file (Utf8.encode source.toList))]
  cwd := ⟨.root, []⟩

/-- The trees of a program with an unused import, and without it. -/
def unusedThenCall : Parser :=
  shortParser [("import b from 'b';\nrun();\n", [shortImport 0, shortCall 19 3]),
    ("run();\n", [shortCall 0 3])]

/-- A file with newlines only loses the line of the import, whatever path it is read by. -/
theorem fix_cuts_lines_newlines :
    let s := projectOf "import b from 'b';\nrun();\n"
    let bytes := Utf8.encode "import b from 'b';\nrun();\n".toList
    let p : Path := ⟨.root, ["lib", "..", "a.js"]⟩
    let result := s.runCommand unusedThenCall {} .warning (.fix [⟨.relative, []⟩] .write false)
    s.root.readBytes p = .ok bytes ∧ 0x0D ∉ bytes ∧
      LinesCut bytes (Utf8.encode "run();\n".toList) ∧
      result.session.root.readBytes p = .ok (Utf8.encode "run();\n".toList) := by
  intro s bytes p result
  have hread : s.root.readBytes p = .ok bytes := by decide +kernel
  have hreturn : 0x0D ∉ bytes := by decide +kernel
  have hafter : result.session.root.readBytes p = .ok (Utf8.encode "run();\n".toList) := by
    decide +kernel
  obtain ⟨bytes', hbytes, hcut, -⟩ :=
    fix_cuts_lines s unusedThenCall {} .warning [⟨.relative, []⟩] hread
  obtain rfl : bytes' = Utf8.encode "run();\n".toList := Except.ok.inj (hbytes.symm.trans hafter)
  exact ⟨hread, hreturn, hcut hreturn, hafter⟩

/-- A file with carriage returns loses those of the lines that stay, too. -/
theorem fix_loses_returns :
    let s := projectOf "import b from 'b';\r\nrun();\r\n"
    let bytes := Utf8.encode "import b from 'b';\r\nrun();\r\n".toList
    let p : Path := ⟨.root, ["a.js"]⟩
    let result := s.runCommand unusedThenCall {} .warning (.fix [⟨.relative, []⟩] .write false)
    s.root.readBytes p = .ok bytes ∧
      result.session.root.readBytes p = .ok (Utf8.encode "run();\n".toList) ∧
      ¬LinesCut bytes (Utf8.encode "run();\n".toList) := by
  intro s bytes p result
  refine ⟨by decide +kernel, by decide +kernel, fun hcut => ?_⟩
  -- in front of every newline there was a return
  have hreturns : bytes.IsChain fun b b' => b' = 0x0A → b = 0x0D := by decide +kernel
  have hafter := hcut.isChain hreturns
  revert hafter
  decide +kernel

end PatchLint
