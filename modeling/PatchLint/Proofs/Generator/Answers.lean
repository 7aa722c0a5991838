import PatchLint.Generator.Chat
import PatchLint.Proofs.Generator.EmbeddedObject

/-!
# What can come of a request

A request for a fix ends with a fix or with the failure that callers know of, whatever the network answers and
whatever shape the value in the answer has. One failure gets past all checks: that a text goes deeper than its
reader.

* `Handled` — what may come of a step; steps in a row are handled if each of them is (`Handled.bind`)
* `item_failure`, `path_failure` — what goes wrong on the way to an item of a value
* `userPrompt_handled`, `value_handled`, `replyText_handled`, `readReply_handled` — each step by itself
* `generate_handled`, `generate_cases` — a request as a whole
-/

namespace PatchLint

open Json (ExceedsLimit)

/-! ## Outcomes that callers can handle -/

/-- An outcome is a value with a property or the failure that callers know of. The failure of a text that goes too
deep is let through where `deep` accounts for it. -/
def Handled {α : Type} (deep : Prop) (P : α → Prop) : Except Failure α → Prop
  | .ok v => P v
  | .error (.generation _) => True
  | .error .nesting => deep
  | .error _ => False

variable {α β : Type} {deep deep' : Prop} {P : α → Prop} {Q : β → Prop} {r : Except Failure α}

/-- Steps in a row are handled if each of them is. -/
theorem Handled.bind {f : α → Except Failure β} (h : Handled deep P r)
    (hf : ∀ v, P v → Handled deep Q (f v)) : Handled deep Q (r >>= f) := by
  match r, h with
  | .ok v, h => exact hf v h
  | .error (.generation _), _ => trivial
  | .error .nesting, h => exact h

theorem Handled.map {f : α → β} (h : Handled deep P r) : Handled deep (fun _ => True) (r.map f) := by
  match r, h with
  | .ok v, _ => trivial
  | .error (.generation _), _ => trivial
  | .error .nesting, h => exact h

theorem Handled.mono {P' : α → Prop} (h : Handled deep P r) (hdeep : deep → deep')
    (hP : ∀ v, P v → P' v) : Handled deep' P' r := by
  match r, h with
  | .ok v, h => exact hP v h
  | .error (.generation _), _ => trivial
  | .error .nesting, h => exact hdeep h

theorem Handled.cases (h : Handled deep P r) :
    (∃ v, r = .ok v ∧ P v) ∨ (∃ error, r = .error (.generation error)) ∨
      (r = .error .nesting ∧ deep) := by
  match r, h with
  | .ok v, h => exact Or.inl ⟨v, rfl, h⟩
  | .error (.generation error), _ => exact Or.inr (Or.inl ⟨error, rfl⟩)
  | .error .nesting, h => exact Or.inr (Or.inr ⟨rfl, h⟩)

/-! ## Items of a value -/

/-- The failures to reach an item of a value. -/
def IsAccessFailure : Failure → Prop
  | .missingKey | .outOfRange | .wrongType => True
  | _ => False

/-- Whatever a value is and whatever it is asked for, no other failure arises. -/
theorem item_failure {v : Json} {key : ItemKey} {f : Failure} (h : v.item key = .error f) :
    IsAccessFailure f := by
  unfold Json.item at h
  repeat' split at h
  all_goals cases h
  all_goals trivial

/-- The same holds at the end of a path of any length. -/
theorem path_failure {path : List ItemKey} {v : Json} {f : Failure}
    (h : path.foldlM Json.item v = .error f) : IsAccessFailure f := by
  induction path generalizing v with
  | nil => cases h
  | cons key path ih =>
    rw [List.foldlM_cons] at h
    cases hitem : v.item key with
    | error g =>
      rw [hitem] at h
      cases h
      exact item_failure hitem
    | ok w =>
      rw [hitem] at h
      exact ih h

theorem replyText_handled (data : Json) :
    Handled False (fun reply => replyText data = .ok reply) (replyText data) := by
  cases hreply : replyText data with
  | ok reply => rfl
  | error f =>
    unfold replyText at hreply
    cases hpath : replyPath.foldlM Json.item data with
    | error g =>
      have hg := path_failure hpath
      rw [hpath] at hreply
      cases hreply
      cases g <;> first | exact hg.elim | trivial
    | ok v =>
      rw [hpath] at hreply
      cases v with
      | str s =>
        simp only [Except.mapError] at hreply
        split at hreply
        · cases hreply
          trivial
        · cases hreply
      | _ =>
        cases hreply
        trivial

/-! ## Texts that are read -/

/-- A text that is no JSON value and one that goes too deep are told apart. -/
theorem loadJson_cases (limit : Option Nat) (t : Text) :
    (∃ v, loadJson limit t = .ok v) ∨ loadJson limit t = .error .invalidValue ∨
      (loadJson limit t = .error .nesting ∧ ExceedsLimit limit t) := by
  cases hjson : loadJson limit t with
  | ok v => exact Or.inl ⟨v, rfl⟩
  | error f =>
    have hf : f = .invalidValue ∨ f = .nesting := by
      unfold loadJson at hjson
      split at hjson
      · cases hjson
      · split at hjson
        · cases hjson
          exact Or.inr rfl
        · cases hjson
          exact Or.inl rfl
    rcases hf with rfl | rfl
    · exact Or.inr (Or.inl rfl)
    · exact Or.inr (Or.inr ⟨rfl, exceedsLimit_of_loadJson hjson⟩)

theorem loadObject?_handled (limit : Option Nat) (t : Text) :
    Handled (ExceedsLimit limit t) (fun _ => True) (loadObject? limit t) := by
  unfold loadObject?
  rcases loadJson_cases limit t with ⟨v, h⟩ | h | ⟨h, hdeep⟩
  · rw [h]
    trivial
  · rw [h]
    trivial
  · rw [h]
    exact hdeep

/-- The package description that is known for a request. -/
def FixRequest.manifest? (request : FixRequest) : Option Text :=
  request.repoContext.bind (·.packageJson)

/-- A package description that is no JSON value does no harm. -/
theorem dependencyLines_handled (limit : Option Nat) (manifest : Option Text) :
    Handled (∃ t, manifest = some t ∧ ExceedsLimit limit t) (fun _ => True)
      (dependencyLines limit manifest) := by
  cases manifest with
  | none => trivial
  | some t =>
    unfold dependencyLines
    dsimp only
    by_cases hempty : t.isEmpty = true
    · rw [if_pos hempty]
      trivial
    rw [if_neg hempty, dependencyNames]
    rcases loadJson_cases limit t with ⟨v, h⟩ | h | ⟨h, hdeep⟩
    · rw [h]
      trivial
    · rw [h]
      trivial
    · rw [h]
      exact ⟨t, rfl, hdeep⟩

theorem userPrompt_handled (limit : Option Nat) (request : FixRequest) :
    Handled (∃ t, request.manifest? = some t ∧ ExceedsLimit limit t) (fun _ => True)
      (userPrompt limit request) := by
  unfold userPrompt FixRequest.manifest?
  cases request.repoContext with
  | none => trivial
  | some context => exact (dependencyLines_handled limit context.packageJson).map.map

/-- A response without a value is a failure that callers know of. -/
theorem value_handled (limit : Option Nat) (url : String) (timeout : Binary64) (answer : HttpAnswer) :
    Handled (∃ status reason body, answer = .response status reason body ∧ ExceedsLimit limit body.toList)
      (fun data => answer.value limit url = .ok data)
      ((answer.value limit url).mapError (transportError timeout)) := by
  cases answer with
  | timeout => trivial
  | connectionFailed message => trivial
  | malformed => trivial
  | response status reason body =>
    unfold HttpAnswer.value bodyValue
    dsimp only
    cases statusFault? status reason url with
    | some fault => trivial
    | none =>
      dsimp only
      cases hparse : Json.parseWithin limit body.toList with
      | ok v => rfl
      | error f =>
        obtain ⟨cause, rest⟩ := f
        cases cause with
        | nesting container =>
          exact ⟨status, reason, body, rfl, Json.exceedsLimit_of_parseWithin hparse rfl⟩
        | _ => trivial

/-! ## The fix in a reply -/

theorem presentField?_str {fields : List (String × Json)} {key s : String}
    (h : presentField? fields key = some (.str s)) : s ≠ "" := by
  rintro rfl
  obtain ⟨-, hpresent⟩ := Option.filter_eq_some_iff.mp h
  cases hpresent

/-- A text member is not empty, unless its default is. -/
theorem textField_handled (fields : List (String × Json)) (key default : String) :
    Handled deep (fun s => default ≠ "" → s ≠ "") (textField fields key default) := by
  unfold textField
  cases hfield : presentField? fields key with
  | none => exact id
  | some v =>
    cases v with
    | str s => exact fun _ => presentField?_str hfield
    | _ => trivial

theorem risksField_handled (fields : List (String × Json)) :
    Handled deep (fun _ => True) (risksField fields) := by
  unfold risksField
  cases presentField? fields "risks" with
  | none => trivial
  | some v => cases v <;> trivial

/-- Whatever an object holds, it is a fix with a rationale or a failure that callers know of. -/
theorem fixOfFields_handled (fields : List (String × Json)) :
    Handled deep (fun fix => fix.rationale ≠ "") (fixOfFields fields) := by
  refine (textField_handled fields "diff" "").bind fun diff _ => ?_
  refine (textField_handled fields "rationale" "Fix applied").bind fun rationale hrationale => ?_
  refine (risksField_handled fields).bind fun risks _ => ?_
  exact hrationale (by decide)

/-- The search ends with what it had passed before and a part of the text in front of it. -/
theorem balancedFrom?_prefix {s : BraceState} {seen t u : Text} (h : balancedFrom? s seen t = some u) :
    ∃ v, u = seen.reverse ++ v ∧ v <+: t := by
  induction t generalizing s seen with
  | nil => cases h
  | cons c t ih =>
    rw [balancedFrom?] at h
    split at h
    · cases h
      exact ⟨[c], List.reverse_cons, List.cons_prefix_cons.mpr ⟨rfl, List.nil_prefix⟩⟩
    · obtain ⟨v, rfl, hv⟩ := ih h
      refine ⟨c :: v, ?_, List.cons_prefix_cons.mpr ⟨rfl, hv⟩⟩
      rw [List.reverse_cons, List.append_assoc, List.singleton_append]

theorem balancedBraces?_sublist {t u : Text} (h : balancedBraces? t = some u) : u.Sublist t := by
  unfold balancedBraces? at h
  split at h
  · cases h
  · obtain ⟨v, rfl, hv⟩ := balancedFrom?_prefix h
    exact hv.sublist.trans (List.dropWhile_sublist _)

theorem embeddedObject_handled (limit : Option Nat) (t : Text) :
    Handled (ExceedsLimit limit t) (fun _ => True) (embeddedObject limit t) := by
  unfold embeddedObject
  cases hbraces : balancedBraces? t with
  | none => trivial
  | some u =>
    dsimp only
    rcases (loadObject?_handled limit u).cases with ⟨found, h, -⟩ | ⟨error, h⟩ | ⟨h, hdeep⟩
    · rw [h]
      cases found <;> trivial
    · rw [h]
      trivial
    · rw [h]
      exact hdeep.of_sublist (balancedBraces?_sublist hbraces)

theorem firstObject_handled (limit : Option Nat) (reply : Text) :
    Handled (ExceedsLimit limit reply) (fun _ => True) (firstObject limit reply) := by
  have hwhole (h : ExceedsLimit limit (Text.strip reply)) : ExceedsLimit limit reply :=
    h.of_sublist (strip_sublist reply)
  unfold firstObject
  dsimp only
  by_cases hempty : (Text.strip reply).isEmpty = true
  · rw [if_pos hempty]
    trivial
  rw [if_neg hempty]
  rcases (loadObject?_handled limit (Text.strip reply)).cases with
    ⟨found, h, -⟩ | ⟨error, h⟩ | ⟨h, hdeep⟩
  · rw [h]
    cases found with
    | none => exact (embeddedObject_handled limit _).mono hwhole fun _ h => h
    | some fields => trivial
  · rw [h]
    trivial
  · rw [h]
    exact hwhole hdeep

theorem readReply_handled (limit : Option Nat) (reply : Text) :
    Handled (ExceedsLimit limit reply) (fun fix => fix.rationale ≠ "") (readReply limit reply) :=
  (firstObject_handled limit reply).bind fun fields _ => fixOfFields_handled fields

/-! ## Requests -/

namespace ChatEndpoint

/-- The texts that an answer is read from: the body of the response and the reply in it. -/
inductive AnswerText (e : ChatEndpoint) (limit : Option Nat) : HttpAnswer → Text → Prop
  | body {status : Int} {reason body : String} :
    AnswerText e limit (.response status reason body) body.toList
  | reply {answer : HttpAnswer} {data : Json} {reply : Text} : answer.value limit e.url = .ok data →
    replyText data = .ok reply → AnswerText e limit answer reply

/-- An answer of the network is a fix or a failure that callers know of, unless it goes too deep. -/
theorem interpret_handled (e : ChatEndpoint) (limit : Option Nat) (answer : HttpAnswer) :
    Handled (∃ t, e.AnswerText limit answer t ∧ ExceedsLimit limit t) (fun fix => fix.rationale ≠ "")
      (e.interpret limit answer) := by
  have hvalue := value_handled limit e.url e.timeout answer
  refine (hvalue.mono ?_ fun _ h => h).bind fun data hdata => ?_
  · rintro ⟨status, reason, body, rfl, hdeep⟩
    exact ⟨body.toList, .body, hdeep⟩
  refine ((replyText_handled data).mono False.elim fun _ h => h).bind fun reply hreply => ?_
  refine (readReply_handled limit reply).mono ?_ fun _ h => h
  intro hdeep
  exact ⟨reply, .reply hdata hreply, hdeep⟩

/-- The texts that are read on the way from a request to a fix: the package description, and those that the
answer of the network is read from. -/
inductive RequestText (e : ChatEndpoint) (limit : Option Nat) (request : FixRequest)
    (network : Network) : Text → Prop
  | manifest {t : Text} : request.manifest? = some t → RequestText e limit request network t
  | answer {message : String} {t : Text} : userPrompt limit request = .ok message →
    AnswerText e limit (network.post (e.callWith message)).1 t → RequestText e limit request network t

theorem generate_handled (e : ChatEndpoint) (limit : Option Nat) (request : FixRequest)
    (network : Network) :
    Handled (∃ t, e.RequestText limit request network t ∧ ExceedsLimit limit t)
      (fun fix => fix.rationale ≠ "") (e.generate limit request network).1 := by
  unfold generate
  rcases (userPrompt_handled limit request).cases with
    ⟨message, h, -⟩ | ⟨error, h⟩ | ⟨h, t, ht, hdeep⟩
  · rw [h]
    refine (e.interpret_handled limit (network.post (e.callWith message)).1).mono ?_ fun _ h => h
    rintro ⟨t, ht, hdeep⟩
    exact ⟨t, .answer h ht, hdeep⟩
  · rw [h]
    trivial
  · rw [h]
    exact ⟨t, .manifest ht, hdeep⟩

/-- **Every failure is one that callers know of, unless a text goes too deep.** A request ends with a fix that has a
rationale, with the failure that callers know of, or because one of the texts on the way has more lists and objects
in it than their reader has levels for. -/
theorem generate_cases (e : ChatEndpoint) (limit : Option Nat) (request : FixRequest)
    (network : Network) :
    (∃ fix, (e.generate limit request network).1 = .ok fix ∧ fix.rationale ≠ "") ∨
      (∃ error, (e.generate limit request network).1 = .error (.generation error)) ∨
      ((e.generate limit request network).1 = .error .nesting ∧
        ∃ t, e.RequestText limit request network t ∧ ExceedsLimit limit t) :=
  (e.generate_handled limit request network).cases

/-- A package description of too many brackets keeps a request from being made, and no failure that callers know of
says so. -/
theorem generate_brackets (e : ChatEndpoint) (n : Nat) (rest : Text) {request : FixRequest}
    (h : request.manifest? = some (List.replicate (n + 1) '[' ++ rest)) (network : Network) :
    e.generate (some n) request network = (.error .nesting, network) := by
  obtain ⟨context, hcontext, hmanifest⟩ := Option.bind_eq_some_iff.mp h
  have hempty : ¬(List.replicate (n + 1) '[' ++ rest).isEmpty = true := Bool.false_ne_true
  have hlines : dependencyLines (some n) context.packageJson = .error .nesting := by
    rw [hmanifest, dependencyLines, if_neg hempty, dependencyNames, loadJson_brackets]
    rfl
  have hprompt : userPrompt (some n) request = .error .nesting := by
    rw [userPrompt, hcontext, contextText, hlines]
    rfl
  rw [generate, hprompt]

/-- A description of one bracket more than the reader has levels for. -/
theorem generate_eq_nesting :
    let e : ChatEndpoint := ⟨"http://localhost:11434/v1", "m", "k", .nan, .nan, 100, []⟩
    let request : FixRequest := ⟨[], .js, "a.js", [], some ⟨some (List.replicate 1001 '['), false⟩⟩
    (e.generate (some 1000) request {}).1 = .error .nesting := by
  intro e request
  have h : request.manifest? = some (List.replicate (1000 + 1) '[' ++ []) := by
    rw [List.append_nil]
    rfl
  rw [e.generate_brackets 1000 [] h {}]

end ChatEndpoint

end PatchLint
