import PatchLint.Files.Scan
import PatchLint.Rules.Analysis

/-!
# Reading sources

A source file is read and parsed in one step. A file that cannot be read or decoded is reported like
a syntax error at its start.
-/

namespace PatchLint

/-- A source file that has been read. The text is empty if it could not be read. -/
structure SourceReading extends ParseResult where
  file : Path
  language : Language
  source : Text
  /-- The grammars that were tried in vain. -/
  rejected : List Grammar

/-- An error at the start of a file of which nothing is known. -/
def unreadableFault (message : String) : SyntaxFault := ⟨1, 1, message, none⟩

/-- The wording of a failure to get the text of a file. -/
def FileTree.TextFault.message (path : Path) : FileTree.TextFault → String
  | .unreadable fault => "Cannot read file: " ++ fault.message path.toString
  | .undecodable error => "Encoding error: " ++ error.message

/-- Reads and parses a file. Its language is given by its suffix unless it is given otherwise. -/
def readSource (parser : Parser) (root : FileTree) (cwd file : Path) (language : Option Language) :
    SourceReading :=
  let language := (language.or (languageOf? file)).getD .js
  match root.readText (cwd.join file) with
  | .error fault =>
    ⟨⟨none, some (unreadableFault (fault.message file))⟩, file, language, [], []⟩
  | .ok source =>
    ⟨parseSource parser language source, file, language, source,
      rejections parser source language.grammars⟩

/-- The bytes of a source that has been read. -/
def SourceReading.bytes (r : SourceReading) : List UInt8 := Utf8.encode r.source

/-- The findings in a source that has been read. -/
def SourceReading.findings (r : SourceReading) (c : RuleConfig) : List Diagnostic :=
  match r.tree with
  | none => []
  | some tree => analyzeTree c r.bytes tree

end PatchLint
