import PatchLint.Proofs.Scope.Contribution
import PatchLint.Proofs.Tree.Places

/-!
# The places of bound names

A pattern binds the names that are reached from it through its parts: all named children of an object, an array
or a rest pattern, but only one child of a pair, of a name with a default value and of a parameter. Here the names
are told by their places, that is by the way that leads to them from child to child. Nothing else of a pattern is
reached, so no name in a default value, in a key or in a type is bound.

* `Enters`, `BindsAt` — how a pattern goes on in its children, and the names that it reaches
* `mem_boundPlaces_iff`, `pairwise_boundPlaces` — the places of the names, in the order of the text
* `map_snd_boundPlaces` — they are the places of the names that are bound
* `not_bindsAt_of_isAside` — nothing in a default value, in a key or in a type is reached
* `bindPattern_exact` — a pattern binds the names that it reaches, and does nothing else
-/

namespace PatchLint

open Node

/-! ## What a pattern reaches -/

/-- Whether a child is the first one that a field names. -/
def FirstUnder (n : Node) (field : String) (i : Nat) (c : Node) : Prop :=
  n.children[i]? = some c ∧ field ∈ c.info.fields ∧
    ∀ j < i, ∀ d, n.children[j]? = some d → field ∉ d.info.fields

/-- Whether a pattern goes on in a child: any named child of an object, an array or a rest pattern, and one child
of the others. -/
inductive Enters (n : Node) (i : Nat) (c : Node) : Prop
  | element (kind : n.kind = "object_pattern" ∨ n.kind = "array_pattern" ∨ n.kind = "rest_pattern")
      (child : n.children[i]? = some c) (named : c.info.named = true)
  | value (kind : n.kind = "pair_pattern") (child : FirstUnder n "value" i c)
  | left (kind : n.kind = "assignment_pattern" ∨ n.kind = "object_assignment_pattern")
      (child : FirstUnder n "left" i c)
  | pattern (kind : n.kind = "required_parameter" ∨ n.kind = "optional_parameter")
      (child : FirstUnder n "pattern" i c)

/-- The names that a pattern reaches, each with its place in the pattern. -/
inductive BindsAt : Node → List Nat → Node → Prop
  | name {n : Node} (kind : n.kind = "identifier" ∨ n.kind = "shorthand_property_identifier_pattern") :
      BindsAt n [] n
  | inside {n c m : Node} {i : Nat} {place : List Nat} (enters : Enters n i c)
      (below : BindsAt c place m) : BindsAt n (i :: place) m

/-! ## Indices -/

/-- The child that a field names, with its index. -/
def indexedField (n : Node) (field : String) : List (Node × Nat) :=
  (n.children.zipIdx.find? fun x => x.1.info.fields.contains field).toList

/-- The parts of a pattern, each with its index among the children. -/
def indexedParts (n : Node) : List (Node × Nat) :=
  if ["object_pattern", "array_pattern", "rest_pattern"].contains n.kind then
    n.children.zipIdx.filter (·.1.info.named)
  else if n.kind = "pair_pattern" then indexedField n "value"
  else if ["assignment_pattern", "object_assignment_pattern"].contains n.kind then indexedField n "left"
  else if ["required_parameter", "optional_parameter"].contains n.kind then indexedField n "pattern"
  else []

theorem map_fst_indexedField (n : Node) (field : String) :
    (indexedField n field).map (·.1) = (n.field? field).toList := by
  have hchildren : n.children = n.children.zipIdx.map (·.1) := by simp
  unfold indexedField field?
  conv => rhs; rw [hchildren]
  rw [List.find?_map, Option.toList_map]
  rfl

/-- The parts of a pattern are the nodes that are entered. -/
theorem map_fst_indexedParts (n : Node) : (indexedParts n).map (·.1) = patternParts n := by
  unfold indexedParts patternParts
  split
  · exact map_fst_indexedNamed n
  split
  · exact map_fst_indexedField n _
  split
  · exact map_fst_indexedField n _
  split
  · exact map_fst_indexedField n _
  · rfl

theorem mem_indexedField_iff {n c : Node} {field : String} {i : Nat} :
    (c, i) ∈ indexedField n field ↔ FirstUnder n field i c := by
  rw [indexedField, Option.mem_toList, List.find?_eq_some_iff_getElem]
  simp only [List.getElem_zipIdx, List.length_zipIdx, List.contains_iff_mem, Nat.zero_add]
  constructor
  · rintro ⟨hfield, j, hj, heq, hfirst⟩
    obtain ⟨hget, rfl⟩ := Prod.mk.inj heq
    refine ⟨List.getElem?_eq_some_iff.mpr ⟨hj, hget⟩, hfield, fun k hk d hd => ?_⟩
    obtain ⟨hklen, rfl⟩ := List.getElem?_eq_some_iff.mp hd
    simpa using hfirst k hk
  · rintro ⟨hget, hfield, hfirst⟩
    obtain ⟨hi, rfl⟩ := List.getElem?_eq_some_iff.mp hget
    refine ⟨hfield, i, hi, rfl, fun k hk => ?_⟩
    simpa using hfirst k hk _ (List.getElem?_eq_getElem (by omega))

theorem mem_indexedParts_iff {n c : Node} {i : Nat} : (c, i) ∈ indexedParts n ↔ Enters n i c := by
  unfold indexedParts
  constructor
  · intro h
    split at h
    · next kind =>
      obtain ⟨hchild, hnamed⟩ := List.mem_filter.mp h
      exact .element (by simpa using kind) (List.mem_zipIdx_iff_getElem?.mp hchild) hnamed
    split at h
    · next kind => exact .value kind (mem_indexedField_iff.mp h)
    split at h
    · next kind => exact .left (by simpa using kind) (mem_indexedField_iff.mp h)
    split at h
    · next kind => exact .pattern (by simpa using kind) (mem_indexedField_iff.mp h)
    · cases h
  · intro h
    cases h with
    | element kind child named =>
      rw [if_pos (by simpa using kind)]
      exact List.mem_filter.mpr ⟨List.mem_zipIdx_iff_getElem?.mpr child, named⟩
    | value kind child =>
      rw [kind]
      exact mem_indexedField_iff.mpr child
    | left kind child =>
      rcases kind with kind | kind
      all_goals
        rw [kind]
        exact mem_indexedField_iff.mpr child
    | pattern kind child =>
      rcases kind with kind | kind
      all_goals
        rw [kind]
        exact mem_indexedField_iff.mpr child

/-- The parts are entered from left to right. -/
theorem pairwise_indexedParts (n : Node) : (indexedParts n).Pairwise fun x y => x.2 < y.2 := by
  have hfield : ∀ field, (indexedField n field).Pairwise fun x y => x.2 < y.2 := by
    intro field
    rw [indexedField]
    cases n.children.zipIdx.find? _ with
    | none => exact .nil
    | some x => exact List.pairwise_singleton _ x
  unfold indexedParts
  split
  · exact pairwise_indexedNamed n
  split
  · exact hfield _
  split
  · exact hfield _
  split
  · exact hfield _
  · exact .nil

/-! ## Places of names -/

theorem Enters.getElem?_children {n c : Node} {i : Nat} (h : Enters n i c) : n.children[i]? = some c := by
  cases h with
  | element _ child _ => exact child
  | value _ child => exact child.1
  | left _ child => exact child.1
  | pattern _ child => exact child.1

theorem Enters.mem_children {n c : Node} {i : Nat} (h : Enters n i c) : c ∈ n.children :=
  List.mem_of_getElem? h.getElem?_children

/-- The names that a pattern reaches, each with its place. -/
def boundPlaces (n : Node) : List (List Nat × Node) :=
  if isBoundName n then [([], n)]
  else (indexedParts n).attach.flatMap fun ⟨(c, i), _⟩ =>
    (boundPlaces c).map fun found => (i :: found.1, found.2)
termination_by n.count
decreasing_by exact count_lt_of_mem_children (mem_indexedParts_iff.mp ‹_›).mem_children

theorem boundPlaces_of_isBoundName {n : Node} (h : isBoundName n = true) :
    boundPlaces n = [([], n)] := by
  rw [boundPlaces, if_pos h]

theorem boundPlaces_of_not_isBoundName {n : Node} (h : ¬isBoundName n = true) :
    boundPlaces n = (indexedParts n).flatMap fun part =>
      (boundPlaces part.1).map fun found => (part.2 :: found.1, found.2) := by
  rw [boundPlaces, if_neg h]
  simp only [List.flatMap_subtype, List.unattach_attach]

/-- Without their places, these are the names that are bound. -/
theorem map_snd_boundPlaces (n : Node) : (boundPlaces n).map (·.2) = patternNames n := by
  induction n using children_induction with
  | step n ih =>
    by_cases hname : isBoundName n = true
    · rw [boundPlaces_of_isBoundName hname, patternNames_of_isBoundName hname]
      rfl
    · rw [boundPlaces_of_not_isBoundName hname, patternNames_of_not_isBoundName hname,
        ← map_fst_indexedParts, List.map_flatMap, List.flatMap_map]
      refine List.flatMap_congr fun part hpart => ?_
      rw [List.map_map]
      exact ih part.1 (mem_indexedParts_iff.mp hpart).mem_children

theorem isBoundName_iff {n : Node} :
    isBoundName n = true ↔ n.kind = "identifier" ∨ n.kind = "shorthand_property_identifier_pattern" := by
  simp [isBoundName]

/-- A name is not entered. -/
theorem Enters.not_isBoundName {n c : Node} {i : Nat} (h : Enters n i c) : ¬isBoundName n = true := by
  intro hname
  have hparts : indexedParts n = [] := by
    rcases isBoundName_iff.mp hname with kind | kind
    all_goals
      rw [indexedParts, kind]
      rfl
  have hmem := mem_indexedParts_iff.mpr h
  rw [hparts] at hmem
  cases hmem

/-- **The places are those of the names that the pattern reaches.** -/
theorem mem_boundPlaces_iff {n m : Node} {place : List Nat} :
    (place, m) ∈ boundPlaces n ↔ BindsAt n place m := by
  induction n using children_induction generalizing place with
  | step n ih =>
    by_cases hname : isBoundName n = true
    · rw [boundPlaces_of_isBoundName hname, List.mem_singleton, Prod.mk.injEq]
      constructor
      · rintro ⟨rfl, rfl⟩
        exact .name (isBoundName_iff.mp hname)
      · intro h
        cases h with
        | name _ => exact ⟨rfl, rfl⟩
        | inside enters _ => exact absurd hname enters.not_isBoundName
    · rw [boundPlaces_of_not_isBoundName hname]
      simp only [List.mem_flatMap, List.mem_map, Prod.mk.injEq]
      constructor
      · rintro ⟨⟨c, i⟩, hpart, ⟨below, m'⟩, hfound, rfl, rfl⟩
        have enters := mem_indexedParts_iff.mp hpart
        exact .inside enters ((ih c enters.mem_children).mp hfound)
      · intro h
        cases h with
        | name kind => exact absurd (isBoundName_iff.mpr kind) hname
        | @inside _ c _ i below enters hbelow =>
          exact ⟨(c, i), mem_indexedParts_iff.mpr enters, (below, m),
            (ih c enters.mem_children).mpr hbelow, rfl, rfl⟩

/-- **The names are found in the order of the text.** -/
theorem pairwise_boundPlaces (n : Node) : (boundPlaces n).Pairwise fun x y => x.1 < y.1 := by
  induction n using children_induction with
  | step n ih =>
    by_cases hname : isBoundName n = true
    · rw [boundPlaces_of_isBoundName hname]
      exact List.pairwise_singleton _ _
    · rw [boundPlaces_of_not_isBoundName hname, List.pairwise_flatMap]
      refine ⟨fun part hpart => ?_, (pairwise_indexedParts n).imp fun {x y} hlt => ?_⟩
      · rw [List.pairwise_map]
        refine (ih part.1 (mem_indexedParts_iff.mp hpart).mem_children).imp fun hlt => ?_
        exact List.cons_lt_cons_iff.mpr (Or.inr ⟨rfl, hlt⟩)
      · -- names below different parts are in the order of the parts
        intro a ha b hb
        obtain ⟨a, -, rfl⟩ := List.mem_map.mp ha
        obtain ⟨b, -, rfl⟩ := List.mem_map.mp hb
        exact List.cons_lt_cons_iff.mpr (Or.inl hlt)

/-! ## What is not reached -/

theorem BindsAt.at? {n m : Node} {place : List Nat} (h : BindsAt n place m) :
    n.at? place = some m := by
  induction h with
  | name _ => rfl
  | inside enters _ ih => rw [Node.at?, enters.getElem?_children, Option.bind_some, ih]

/-- The kinds of the nodes that are names or have names in them. -/
def bindingKinds : List String :=
  ["identifier", "shorthand_property_identifier_pattern", "object_pattern", "array_pattern", "rest_pattern",
   "pair_pattern", "assignment_pattern", "object_assignment_pattern", "required_parameter",
   "optional_parameter"]

/-- Whether a child of a node stands aside: the key of a pair, a default value, the type or the default value of a
parameter, and any node of another kind, such as a computed key or a type annotation. -/
def IsAside (n c : Node) : Prop :=
  (n.kind = "pair_pattern" ∧ "value" ∉ c.info.fields) ∨
  ((n.kind = "assignment_pattern" ∨ n.kind = "object_assignment_pattern") ∧ "left" ∉ c.info.fields) ∨
  ((n.kind = "required_parameter" ∨ n.kind = "optional_parameter") ∧ "pattern" ∉ c.info.fields) ∨
  c.kind ∉ bindingKinds

theorem BindsAt.kind_mem {n m : Node} {place : List Nat} (h : BindsAt n place m) :
    n.kind ∈ bindingKinds := by
  cases h with
  | name kind => rcases kind with kind | kind <;> simp [bindingKinds, kind]
  | inside enters _ =>
    cases enters with
    | element kind _ _ => rcases kind with kind | kind | kind <;> simp [bindingKinds, kind]
    | value kind _ => simp [bindingKinds, kind]
    | left kind _ => rcases kind with kind | kind <;> simp [bindingKinds, kind]
    | pattern kind _ => rcases kind with kind | kind <;> simp [bindingKinds, kind]

/-- A child that is entered and has a name below it does not stand aside. -/
theorem Enters.not_isAside {n c m : Node} {i : Nat} {place : List Nat} (h : Enters n i c)
    (hbelow : BindsAt c place m) : ¬IsAside n c := by
  have hkind := hbelow.kind_mem
  cases h with
  | element kind _ _ => rcases kind with kind | kind | kind <;> simp [IsAside, kind, hkind]
  | value kind child => simp [IsAside, kind, hkind, child.2.1]
  | left kind child => rcases kind with kind | kind <;> simp [IsAside, kind, hkind, child.2.1]
  | pattern kind child => rcases kind with kind | kind <;> simp [IsAside, kind, hkind, child.2.1]

/-- **Nothing in a default value, in a key or in a type is reached.** -/
theorem not_bindsAt_of_isAside {n p c : Node} {front : List Nat} {i : Nat} (hp : n.at? front = some p)
    (hc : p.children[i]? = some c) (haside : IsAside p c) (back : List Nat) (m : Node) :
    ¬BindsAt n (front ++ i :: back) m := by
  induction front generalizing n with
  | nil =>
    obtain rfl : n = p := Option.some.inj hp
    rintro ⟨⟩
    next d enters hbelow =>
    obtain rfl : d = c := Option.some.inj (enters.getElem?_children.symm.trans hc)
    exact enters.not_isAside hbelow haside
  | cons j front ih =>
    rintro ⟨⟩
    next d enters hbelow =>
    rw [Node.at?, enters.getElem?_children, Option.bind_some] at hp
    exact ih hp hbelow

/-! ## Binding -/

/-- A field that no step of a run changes stays as it is. -/
theorem Scope.field_performAll_of_forall {γ : Type} (field : Scope → γ) {steps : List ScopeStep}
    (h : ∀ step ∈ steps, ∀ s, field (Scope.perform s step) = field s) (s : Scope) :
    field (s.performAll steps) = field s := by
  induction steps generalizing s with
  | nil => rfl
  | cons step steps ih =>
    obtain ⟨hstep, hsteps⟩ := List.forall_mem_cons.mp h
    rw [performAll_cons, ih hsteps, hstep]

theorem excluded?_bindSteps (source : List UInt8) (offset : Nat) (names : List Node) :
    (bindSteps source offset names).filterMap ScopeStep.excluded? = names.map Node.span := by
  rw [bindSteps, List.filterMap_flatMap, List.map_eq_flatMap]
  rfl

theorem declared?_bindSteps (source : List UInt8) (offset : Nat) (names : List Node) :
    (bindSteps source offset names).filterMap ScopeStep.declared? = names.map (Node.text source) := by
  rw [bindSteps, List.filterMap_flatMap, List.map_eq_flatMap]
  rfl

/-- Binding names does nothing but mark and declare. -/
theorem field_performAll_bindSteps {γ : Type} (field : Scope → γ)
    (hexclude : ∀ s span, field (Scope.exclude s span) = field s)
    (hdeclare : ∀ s name offset, field (Scope.declare s name offset) = field s)
    (source : List UInt8) (offset : Nat) (names : List Node) (s : Scope) :
    field (s.performAll (bindSteps source offset names)) = field s := by
  refine Scope.field_performAll_of_forall field (fun step hstep s => ?_) s
  obtain ⟨n, -, hstep⟩ := List.mem_flatMap.mp hstep
  simp only [List.mem_cons, List.not_mem_nil, or_false] at hstep
  rcases hstep with rfl | rfl
  · exact hexclude s n.span
  · exact hdeclare s (n.text source) offset

/-- **A pattern binds the names that it reaches, and does nothing else.** The names are found in the order of the
text: each of them at its own place, and the places in the order in which one comes to them from left to right.
For each one its span is marked as no reference and its text is declared, always at the given offset. So the spans
that are marked and the names that are declared are those of the names that are reached; what is known about
imports and references stays. No name is reached at or below a child that stands aside. -/
theorem bindPattern_exact (source : List UInt8) (offset : Nat) (pattern : Node) (s : Scope) :
    let after := bindPattern source offset (some pattern) s
    (∃ found : List (List Nat × Node), found.Pairwise (fun x y => x.1 < y.1) ∧
      (∀ place m, (place, m) ∈ found ↔ BindsAt pattern place m) ∧
      after = s.performAll (found.flatMap fun x => [.exclude x.2.span, .declare (x.2.text source) offset])) ∧
    (∀ place m, BindsAt pattern place m → pattern.at? place = some m) ∧
    (∀ span, span ∈ after.excluded ↔ span ∈ s.excluded ∨ ∃ place m, BindsAt pattern place m ∧ m.span = span) ∧
    (∀ name, name ∈ after.declared ↔
      name ∈ s.declared ∨ ∃ place m, BindsAt pattern place m ∧ m.text source = name) ∧
    (after.imports = s.imports ∧ after.references = s.references ∧
      after.typeReferences = s.typeReferences) ∧
    ∀ front p i c, pattern.at? front = some p → p.children[i]? = some c → IsAside p c →
      ∀ back m, ¬BindsAt pattern (front ++ i :: back) m := by
  intro after
  have hafter : after = s.performAll (bindSteps source offset (patternNames pattern)) := by
    show bindAll source offset s [pattern] = _
    rw [bindAll_eq, List.flatMap_singleton]
  have hmap {α : Type} (f : Node → α) (a : α) :
      a ∈ (patternNames pattern).map f ↔ ∃ place m, BindsAt pattern place m ∧ f m = a := by
    simp only [← map_snd_boundPlaces, List.map_map, List.mem_map, Prod.exists, mem_boundPlaces_iff,
      Function.comp_apply]
  refine ⟨⟨boundPlaces pattern, pairwise_boundPlaces pattern, fun _ _ => mem_boundPlaces_iff, ?_⟩,
    fun _ _ h => h.at?, fun span => ?_, fun name => ?_, ⟨?_, ?_, ?_⟩,
    fun _ _ _ _ => not_bindsAt_of_isAside⟩
  · rw [hafter, ← map_snd_boundPlaces, bindSteps, List.flatMap_map]
  · rw [hafter, Scope.mem_excluded_performAll, excluded?_bindSteps, hmap]
  · rw [hafter, Scope.mem_declared_performAll, declared?_bindSteps, hmap]
  · rw [hafter]
    exact field_performAll_bindSteps Scope.imports (fun _ _ => rfl) (fun _ _ _ => rfl) source offset _ s
  · rw [hafter]
    exact field_performAll_bindSteps Scope.references (fun _ _ => rfl) (fun _ _ _ => rfl) source offset _ s
  · rw [hafter]
    exact field_performAll_bindSteps Scope.typeReferences (fun _ _ => rfl) (fun _ _ _ => rfl) source offset _ s

end PatchLint
