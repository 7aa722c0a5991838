import PatchLint.Run.Source

/-!
# What becomes of a source file

A file is read, decoded and parsed, and each step can fail. `SourceFault` and `SourceTree` say how it
ends, by the bytes of the file and the answers of the parser alone.

* `parse_eq_ok_iff` — the tree of a text is that of the first grammar that finds no error in it
* `parse_eq_error_iff` — if every grammar finds one, the error is that of the first grammar. A language
  has at least one grammar, so a text without a tree always has an error to report.
* `parseSource_eq` — so parsing a source finds a tree or an error, and never both
* `fault_readSource_eq_some_iff`, `tree_readSource_eq_some_iff` — reading a file ends as told
-/

namespace PatchLint

variable {parser : Parser} {root : FileTree}

/-! ## Texts -/

theorem acceptedTree?_eq_some_iff {source : Text} {grammars : List Grammar} {tree : Node} :
    acceptedTree? parser source grammars = some tree ↔
      ∃ front g back, grammars = front ++ g :: back ∧
        (∀ g' ∈ front, (parser g' source).info.hasError = true) ∧
        (parser g source).info.hasError = false ∧ tree = parser g source := by
  rw [acceptedTree?, List.find?_map, Option.map_eq_some_iff]
  constructor
  · rintro ⟨g, hg, rfl⟩
    obtain ⟨haccepts, front, back, hgrammars, hfront⟩ := List.find?_eq_some_iff_append.mp hg
    exact ⟨front, g, back, hgrammars, by simpa using hfront, by simpa using haccepts, rfl⟩
  · rintro ⟨front, g, back, hgrammars, hfront, haccepts, rfl⟩
    refine ⟨g, List.find?_eq_some_iff_append.mpr ⟨?_, front, back, hgrammars, ?_⟩, rfl⟩
    · simpa using haccepts
    · simpa using hfront

theorem acceptedTree?_eq_none_iff {source : Text} {grammars : List Grammar} :
    acceptedTree? parser source grammars = none ↔
      ∀ g ∈ grammars, (parser g source).info.hasError = true := by
  rw [acceptedTree?, List.find?_map, Option.map_eq_none_iff, List.find?_eq_none]
  simp

theorem Language.exists_grammars (language : Language) :
    ∃ g others, language.grammars = g :: others := by
  cases language with
  | js => exact ⟨_, _, rfl⟩
  | ts => exact ⟨_, _, rfl⟩

/-- **The tree of a text** is that of the first grammar that finds no error in it. -/
theorem parse_eq_ok_iff {language : Language} {source : Text} {tree : Node} :
    parse parser language source = .ok tree ↔
      ∃ front g back, language.grammars = front ++ g :: back ∧
        (∀ g' ∈ front, (parser g' source).info.hasError = true) ∧
        (parser g source).info.hasError = false ∧ tree = parser g source := by
  rw [← acceptedTree?_eq_some_iff]
  unfold parse
  cases acceptedTree? parser source language.grammars with
  | none => simp
  | some accepted => simp

/-- **A text without a tree has an error to report,** the one that the first grammar finds. -/
theorem parse_eq_error_iff {language : Language} {source : Text} {fault : SyntaxFault} :
    parse parser language source = .error fault ↔
      ∃ g others, language.grammars = g :: others ∧
        (∀ g' ∈ g :: others, (parser g' source).info.hasError = true) ∧
        fault = describeFault (Utf8.encode source) (parser g source) := by
  obtain ⟨first, rest, hfirst⟩ := language.exists_grammars
  unfold parse
  cases haccepted : acceptedTree? parser source language.grammars with
  | some tree =>
    -- a grammar accepts the text, so not all of them find an error
    simp only [reduceCtorEq, false_iff]
    rintro ⟨g, others, hgrammars, herrors, -⟩
    rw [← hgrammars, ← acceptedTree?_eq_none_iff, haccepted] at herrors
    cases herrors
  | none =>
    have herrors := acceptedTree?_eq_none_iff.mp haccepted
    rw [hfirst] at herrors ⊢
    dsimp only
    constructor
    · intro h
      cases h
      exact ⟨first, rest, rfl, herrors, rfl⟩
    · rintro ⟨g, others, hgrammars, -, rfl⟩
      cases hgrammars
      rfl

theorem tryGrammars_of_accepted {source : Text} {grammars : List Grammar} {tree : Node}
    (h : acceptedTree? parser source grammars = some tree) (fault : Option SyntaxFault) :
    tryGrammars parser source fault grammars = ⟨some tree, none⟩ := by
  obtain ⟨front, g, back, rfl, hfront, haccepts, rfl⟩ := acceptedTree?_eq_some_iff.mp h
  clear h
  induction front generalizing fault with
  | nil =>
    rw [List.nil_append, tryGrammars]
    exact if_neg (by simp [haccepts])
  | cons g' front ih =>
    obtain ⟨herror, hfront⟩ := List.forall_mem_cons.mp hfront
    rw [List.cons_append, tryGrammars, if_pos herror, ih _ hfront]

theorem tryGrammars_of_rejected {source : Text} {grammars : List Grammar}
    (h : ∀ g ∈ grammars, (parser g source).info.hasError = true) (fault : Option SyntaxFault) :
    tryGrammars parser source fault grammars
      = ⟨none, fault.or (grammars.head?.map fun g =>
          describeFault (Utf8.encode source) (parser g source))⟩ := by
  induction grammars generalizing fault with
  | nil => rw [tryGrammars, List.head?_nil, Option.map_none, Option.or_none]
  | cons g grammars ih =>
    obtain ⟨herror, hrest⟩ := List.forall_mem_cons.mp h
    rw [tryGrammars, if_pos herror, ih hrest, Option.or_assoc, Option.some_or, List.head?_cons, Option.map_some]

/-- **A source has a tree or an error,** and not both. -/
theorem parseSource_eq (parser : Parser) (language : Language) (source : Text) :
    parseSource parser language source
      = match parse parser language source with
        | .ok tree => ⟨some tree, none⟩
        | .error fault => ⟨none, some fault⟩ := by
  rw [parseSource]
  cases hparse : parse parser language source with
  | ok tree =>
    exact tryGrammars_of_accepted
      (acceptedTree?_eq_some_iff.mpr (parse_eq_ok_iff.mp hparse)) none
  | error fault =>
    obtain ⟨g, others, hgrammars, herrors, rfl⟩ := parse_eq_error_iff.mp hparse
    rw [hgrammars, tryGrammars_of_rejected herrors]
    rfl

/-! ## Files -/

namespace FileTree

variable {file : Path}

theorem readText_eq_unreadable_iff {fault : ReadFault} :
    root.readText file = .error (.unreadable fault) ↔ root.readBytes file = .error fault := by
  rw [readText]
  cases root.readBytes file with
  | error e => simp
  | ok bytes =>
    dsimp only
    cases Utf8.decode bytes with
    | error e => simp
    | ok t => simp

theorem readText_eq_undecodable_iff {error : Utf8.DecodeError} :
    root.readText file = .error (.undecodable error) ↔
      ∃ bytes, root.readBytes file = .ok bytes ∧ Utf8.decode bytes = .error error := by
  rw [readText]
  cases root.readBytes file with
  | error e => simp
  | ok bytes =>
    dsimp only
    cases hdecode : Utf8.decode bytes with
    | error e => simp [hdecode]
    | ok t => simp [hdecode]

end FileTree

/-- The language that a file is read in. -/
def sourceLanguage (file : Path) : Language := (languageOf? file).getD .js

/-- Why a file has no tree: it cannot be read, or decoded, or no grammar accepts its text. With each
goes the error that is reported. -/
inductive SourceFault (parser : Parser) (root : FileTree) (file : Path) : SyntaxFault → Prop where
  | unreadable {fault : ReadFault} (hread : root.readBytes file = .error fault) :
      SourceFault parser root file
        ⟨1, 1, "Cannot read file: " ++ fault.message file.toString, none⟩
  | undecodable {bytes : List UInt8} {error : Utf8.DecodeError}
      (hread : root.readBytes file = .ok bytes) (hdecode : Utf8.decode bytes = .error error) :
      SourceFault parser root file ⟨1, 1, "Encoding error: " ++ error.message, none⟩
  | rejected {source : Text} {g : Grammar} {others : List Grammar}
      (htext : root.readText file = .ok source)
      (hgrammars : (sourceLanguage file).grammars = g :: others)
      (herrors : ∀ g' ∈ g :: others, (parser g' source).info.hasError = true) :
      SourceFault parser root file (describeFault (Utf8.encode source) (parser g source))

/-- The text of a file and its tree, under the first grammar that accepts the text. -/
inductive SourceTree (parser : Parser) (root : FileTree) (file : Path) : Text → Node → Prop where
  | accepted {source : Text} {front back : List Grammar} {g : Grammar}
      (htext : root.readText file = .ok source)
      (hgrammars : (sourceLanguage file).grammars = front ++ g :: back)
      (hfront : ∀ g' ∈ front, (parser g' source).info.hasError = true)
      (haccepts : (parser g source).info.hasError = false) :
      SourceTree parser root file source (parser g source)

theorem sourceTree_iff {file : Path} {source : Text} {tree : Node} :
    SourceTree parser root file source tree ↔
      root.readText file = .ok source ∧ parse parser (sourceLanguage file) source = .ok tree := by
  rw [parse_eq_ok_iff]
  constructor
  · rintro ⟨htext, hgrammars, hfront, haccepts⟩
    exact ⟨htext, _, _, _, hgrammars, hfront, haccepts, rfl⟩
  · rintro ⟨htext, front, g, back, hgrammars, hfront, haccepts, rfl⟩
    exact .accepted htext hgrammars hfront haccepts

theorem sourceFault_iff {file : Path} {fault : SyntaxFault} :
    SourceFault parser root file fault ↔
      (∃ cause, root.readText file = .error cause ∧ fault = unreadableFault (cause.message file)) ∨
      ∃ source, root.readText file = .ok source ∧
        parse parser (sourceLanguage file) source = .error fault := by
  constructor
  · rintro (hread | ⟨hread, hdecode⟩ | ⟨htext, hgrammars, herrors⟩)
    · exact Or.inl ⟨_, FileTree.readText_eq_unreadable_iff.mpr hread, rfl⟩
    · exact Or.inl ⟨_, FileTree.readText_eq_undecodable_iff.mpr ⟨_, hread, hdecode⟩, rfl⟩
    · exact Or.inr ⟨_, htext, parse_eq_error_iff.mpr ⟨_, _, hgrammars, herrors, rfl⟩⟩
  · rintro (⟨cause, htext, rfl⟩ | ⟨source, htext, hparse⟩)
    · cases cause with
      | unreadable readFault => exact .unreadable (FileTree.readText_eq_unreadable_iff.mp htext)
      | undecodable error =>
        obtain ⟨bytes, hread, hdecode⟩ := FileTree.readText_eq_undecodable_iff.mp htext
        exact .undecodable hread hdecode
    · obtain ⟨g, others, hgrammars, herrors, rfl⟩ := parse_eq_error_iff.mp hparse
      exact .rejected htext hgrammars herrors

/-- **A file with a fault has no tree.** -/
theorem SourceFault.not_sourceTree {file : Path} {fault : SyntaxFault} {source : Text} {tree : Node}
    (hfault : SourceFault parser root file fault) : ¬SourceTree parser root file source tree := by
  intro htree
  obtain ⟨htext, hparse⟩ := sourceTree_iff.mp htree
  rcases sourceFault_iff.mp hfault with ⟨cause, herror, -⟩ | ⟨source', htext', herror⟩
  · rw [htext] at herror
    cases herror
  · rw [htext] at htext'
    cases htext'
    rw [hparse] at herror
    cases herror

/-- Only the components of a path matter for what is read. -/
theorem readText_join (file : Path) :
    root.readText (Path.join ⟨.root, []⟩ file) = root.readText file := by
  rw [Path.join]
  split
  · rfl
  · rfl

section

variable {file : Path} {tree : Node}

/-- **A file has no tree for the reasons told,** and each has its error. -/
theorem fault_readSource_eq_some_iff {fault : SyntaxFault} :
    (readSource parser root ⟨.root, []⟩ file none).fault = some fault ↔
      SourceFault parser root file fault := by
  rw [sourceFault_iff, readSource, readText_join]
  cases root.readText file with
  | error cause => simp [eq_comm]
  | ok source =>
    dsimp only
    rw [parseSource_eq, Option.none_or, ← sourceLanguage]
    cases hparse : parse parser (sourceLanguage file) source with
    | ok tree => simp [hparse]
    | error fault' => simp [hparse]

/-- **A file is read and parsed as told.** -/
theorem tree_readSource_eq_some_iff :
    (readSource parser root ⟨.root, []⟩ file none).tree = some tree ↔
      SourceTree parser root file (readSource parser root ⟨.root, []⟩ file none).source tree := by
  rw [sourceTree_iff, readSource, readText_join]
  cases root.readText file with
  | error cause => simp
  | ok source =>
    dsimp only
    rw [parseSource_eq, Option.none_or, ← sourceLanguage]
    cases parse parser (sourceLanguage file) source with
    | ok tree' => simp
    | error fault => simp

/-- **A file that has been read has a tree or an error.** -/
theorem exists_fault_of_tree_eq_none (h : (readSource parser root ⟨.root, []⟩ file none).tree = none) :
    ∃ fault, (readSource parser root ⟨.root, []⟩ file none).fault = some fault := by
  rw [readSource, readText_join] at h ⊢
  cases htext : root.readText file with
  | error cause => exact ⟨_, rfl⟩
  | ok source =>
    rw [htext] at h
    dsimp only at h ⊢
    rw [parseSource_eq] at h ⊢
    cases hparse : parse parser ((none.or (languageOf? file)).getD .js) source with
    | ok tree =>
      rw [hparse] at h
      cases h
    | error fault => exact ⟨fault, rfl⟩

theorem file_readSource : (readSource parser root ⟨.root, []⟩ file none).file = file := by
  rw [readSource, readText_join]
  cases root.readText file with
  | error cause => rfl
  | ok source => rfl

theorem language_readSource :
    (readSource parser root ⟨.root, []⟩ file none).language = sourceLanguage file := by
  unfold readSource
  rw [readText_join, Option.none_or, ← sourceLanguage]
  cases root.readText file with
  | error cause => dsimp only
  | ok source => dsimp only

end

end PatchLint
