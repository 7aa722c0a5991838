import PatchLint.Config.Value
import PatchLint.Files.Path

/-!
# Glob patterns

A simple pattern is a sequence of items: a star matches any text, a question mark any character,
brackets a character of a set, and everything else itself. Slashes are not special to it.

A pattern with a double star is taken apart by its shape:

* `**/name/**` matches if the name of some directory on the path matches;
* `**/rest` matches if some end of the path, cut at a slash, matches the rest;
* `front/**/rest` matches below the literal front, if some end of what follows matches the rest;
* `front/**` matches the front and everything below it;
* any other pattern is treated as a simple one.

## Termination

Every item takes at least one character off the front of the pattern; a set takes as many as it has.
-/

namespace PatchLint

/-! ## Simple patterns -/

/-- An item of a simple pattern. -/
inductive GlobItem where
  | star
  | any
  | literal (c : Char)
  | set (negated : Bool) (ranges : List (Char × Char))
  deriving DecidableEq, Repr

/-- Whether an item other than a star matches a character. -/
def GlobItem.admits : GlobItem → Char → Bool
  | .star, _ => true
  | .any, _ => true
  | .literal c, d => c = d
  | .set negated ranges, d => negated != ranges.any fun (lo, hi) => lo ≤ d && d ≤ hi

/-- All ends of a text, the text itself first. -/
def suffixes : Text → List Text
  | [] => [[]]
  | c :: cs => (c :: cs) :: suffixes cs

/-- Whether a sequence of items matches a text. -/
def itemsMatch : List GlobItem → Text → Bool
  | [], t => t.isEmpty
  | .star :: items, t => (suffixes t).any (itemsMatch items)
  | _ :: _, [] => false
  | item :: items, c :: cs => item.admits c && itemsMatch items cs

/-! ### Sets -/

/-- The body of a set and what follows it, for the input after the opening bracket. A closing bracket
right at the start, or right after the negation, is part of the body. -/
def splitSet? (t : Text) : Option (Text × Text) :=
  let (lead, rest) := match t with
    | '!' :: ']' :: cs => (['!', ']'], cs)
    | '!' :: cs => (['!'], cs)
    | ']' :: cs => ([']'], cs)
    | cs => ([], cs)
  let body := rest.takeWhile (· ≠ ']')
  match rest.dropWhile (· ≠ ']') with
  | [] => none
  | _ :: after => some (lead ++ body, after)

/-- Cuts a set body at the hyphens that make ranges: a hyphen counts only if at least `skip`
characters stand between it and the last cut. `seen` is the chunk being read, in reverse. The
characters of a range's ends are the last of one chunk and the first of the next. -/
def chunksFrom (skip : Nat) (seen : Text) : Text → List Text
  | [] => [seen.reverse]
  | c :: cs =>
    if c = '-' ∧ skip ≤ seen.length then seen.reverse :: chunksFrom 2 [] cs
    else chunksFrom skip (c :: seen) cs

/-- The chunks of a set body. A hyphen at the end stands for itself. -/
def chunks (body : Text) : List Text :=
  let cut := chunksFrom (if body.head? = some '!' then 2 else 1) [] body
  match cut.reverse with
  | [] :: last :: rest => ((last ++ ['-']) :: rest).reverse
  | _ => cut

/-- Joins two chunks between which the range is empty: the ends of the range are dropped. -/
def dropEmptyRange (chunk : Text) : List Text → List Text
  | [] => [chunk]
  | next :: rest =>
    match chunk.getLast?, next.head? with
    | some lo, some hi => if hi < lo then (chunk.dropLast ++ next.drop 1) :: rest else chunk :: next :: rest
    | _, _ => chunk :: next :: rest

/-- The chunks without empty ranges, joined from the last one on. -/
def dropEmptyRanges (cs : List Text) : List Text := cs.foldr dropEmptyRange []

/-- The ranges that chunks stand for. A character that is no end of a range is a range of its own. -/
def rangesOf : List Text → List (Char × Char)
  | [] => []
  | [chunk] => chunk.map fun c => (c, c)
  | chunk :: next :: rest =>
    match chunk.getLast?, next.head? with
    | some lo, some hi =>
      chunk.map (fun c => (c, c)) ++ (lo, hi) :: rangesOf (next :: rest)
    | _, _ => chunk.map (fun c => (c, c)) ++ rangesOf (next :: rest)

/-- The item of a set body. An empty set matches nothing, a negated empty set everything. -/
def setItem (body : Text) : GlobItem :=
  match dropEmptyRanges (chunks body) with
  | ['!'] :: [] => .any
  | ('!' :: chunk) :: rest => .set true (rangesOf (chunk :: rest))
  | cs => .set false (rangesOf cs)

/-! ### Reading -/

theorem length_lt_of_splitSet? {t body after : Text} (h : splitSet? t = some (body, after)) :
    after.length < t.length := by
  have hcut (cs : Text) {d : Char} {rest : Text} (hrest : cs.dropWhile (· ≠ ']') = d :: rest) :
      rest.length < cs.length := by
    have hle := (List.dropWhile_suffix (l := cs) (· ≠ ']')).length_le
    rw [hrest] at hle
    exact hle
  unfold splitSet? at h
  dsimp only at h
  split at h
  · cases h
  · next hrest =>
    cases h
    have hlt := hcut _ hrest
    revert hlt
    split <;> simp only [List.length_cons] <;> omega

/-- The items of a simple pattern. Neighbouring stars are one. -/
def readGlob : Text → List GlobItem
  | [] => []
  | c :: cs =>
    if c = '*' then
      match readGlob cs with
      | .star :: items => .star :: items
      | items => .star :: items
    else if c = '?' then .any :: readGlob cs
    else if c = '[' then
      match _cut : splitSet? cs with
      | none => .literal c :: readGlob cs
      | some (body, after) => setItem body :: readGlob after
    else .literal c :: readGlob cs
termination_by t => t.length
decreasing_by
  -- only behind a set does it go on with something else than the rest
  · exact Nat.lt_succ_self _
  · exact Nat.lt_succ_self _
  · exact Nat.lt_succ_self _
  · exact Nat.lt_succ_of_lt (length_lt_of_splitSet? (by assumption))
  · exact Nat.lt_succ_self _

/-- Whether a simple pattern matches a text. -/
def simpleMatch (pattern text : Text) : Bool := itemsMatch (readGlob pattern) text

/-! ## Double stars -/

/-- All ends of a path, cut at a slash. -/
def pathEnds : List Text → List Text
  | [] => []
  | p :: ps => Text.joinWith ['/'] (p :: ps) :: pathEnds ps

/-- Whether some end of a path matches a simple pattern. -/
def someEndMatches (pattern path : Text) : Bool :=
  (pathEnds (Text.pieces '/' path)).any (simpleMatch pattern)

/-- Whether a pattern that holds a double star matches a path. -/
def doubleStarMatch (pattern path : Text) : Bool :=
  let leads := Text.startsWith pattern "**/".toList
  let trails := Text.endsWith pattern "/**".toList
  if leads && trails then
    let middle := (pattern.take (pattern.length - 3)).drop 3
    (Text.pieces '/' path).dropLast.any (simpleMatch middle)
  else if leads then someEndMatches (pattern.drop 3) path
  else match Text.splitFirst? "/**/".toList pattern with
    | some (front, rest) =>
      Text.startsWith path (front ++ ['/']) && someEndMatches rest (path.drop (front.length + 1))
    | none =>
      if trails then
        let front := pattern.take (pattern.length - 3)
        Text.startsWith path (front ++ ['/']) || path == front
      else simpleMatch pattern path

/-- Whether a pattern matches a path. -/
def globMatch (pattern path : Text) : Bool :=
  if Text.includes pattern "**".toList then doubleStarMatch pattern path
  else simpleMatch pattern path

/-! ## Patterns of a configuration -/

/-- Why a value cannot serve as a pattern. -/
inductive PatternFault where
  /-- It is no text. -/
  | notText
  /-- It is a list or a table that holds a double star. -/
  | starredCollection
  deriving DecidableEq, Repr

/-- Whether some value is the text `**`. -/
def holdsDoubleStar (values : List Value) : Bool := values.any (·.text? == some "**")

/-- Whether a pattern of a configuration matches a path. -/
def Value.globMatch (path : Text) : Value → Except PatternFault Bool
  | .str pattern => .ok (PatchLint.globMatch pattern.toList path)
  | .arr items => .error (if holdsDoubleStar items then .starredCollection else .notText)
  | .table fields =>
    .error (if (fields.map (·.1)).contains "**" then .starredCollection else .notText)
  | _ => .error .notText

/-- Whether one of several patterns matches a path. Patterns after the first match are not looked
at. -/
def anyMatch (path : Text) : List Value → Except PatternFault Bool
  | [] => .ok false
  | p :: ps =>
    match p.globMatch path with
    | .error e => .error e
    | .ok true => .ok true
    | .ok false => anyMatch path ps

/-- Whether one of several patterns matches a path as seen from a base directory. Backslashes count
as slashes. -/
def matchesFrom (base path : Path) (patterns : List Value) : Except PatternFault Bool :=
  let shown := ((path.relativeTo? base).getD path).toString.toList
  anyMatch (shown.map fun c => if c = '\\' then '/' else c) patterns

end PatchLint
