import Mathlib
import WorkerGen.Proofs.Worker.Lines
import WorkerGen.Worker.Handler

/-!
# Calls in generated text

A step becomes a call: a function, and arguments that are JSON text, as it is or inside of a call of
`resolve`.  This file takes a call apart into these pieces (`call?_eq`) and shows that nothing of a
step is lost: with the name of the action, the text of a call gives all arguments
(`argumentsText_inj`), and these give the parameters of the action and the name of the binding
(`eq_of_arguments`).

Two actions have the same text if they differ only in a body that is null in one and absent in the
other.  `Action.normal` makes all such bodies absent.

The name of the action has to be given, since two kinds of actions may have the same function and as
many arguments.  With it, which of the arguments are resolved is known as well
(`isResolved_arguments`), and that is all it takes to find where one argument ends and the next
begins: JSON text can be told from what follows it.
-/

namespace WorkerGen

/-! ## Bodies that are null -/

/-- A body, unless it is null. -/
def presentBody (body : Option Json) : Option Json := body.filter (· != .null)

/-- An action without a body that is null. -/
def Action.normal : Action → Action
  | .fetch url method headers body => .fetch url method headers (presentBody body)
  | action => action

lemma presentBody_eq (body : Option Json) :
    presentBody body = if body.getD .null = .null then none else some (body.getD .null) := by
  cases body with
  | none => rfl
  | some v => by_cases hv : v = .null <;> simp [presentBody, hv]

lemma getD_presentBody (body : Option Json) :
    (presentBody body).getD .null = body.getD .null := by
  rw [presentBody_eq]
  split_ifs with h
  · exact h.symm
  · rfl

lemma presentBody_eq_iff {a b : Option Json} :
    presentBody a = presentBody b ↔ a.getD .null = b.getD .null := by
  constructor
  · intro h
    rw [← getD_presentBody a, h, getD_presentBody]
  · intro h
    rw [presentBody_eq, presentBody_eq, h]

lemma Action.resource?_normal : ∀ action : Action, action.normal.resource? = action.resource?
  | .sql .. => rfl
  | .kvGet .. | .kvPut .. | .kvDelete .. => rfl
  | .r2Get .. | .r2Put .. | .r2Delete .. => rfl
  | .fetch .. => rfl

/-! ## Kinds of actions

A kind is an action without its parameters.  Its name stands in the comment of a step, and no two
kinds have one name. -/

/-- What an action does, without its parameters. -/
inductive ActionKind where
  | query
  | first
  | run
  | kvGet
  | kvPut
  | kvDelete
  | r2Get
  | r2Put
  | r2Delete
  | fetch
deriving DecidableEq, Inhabited, Repr

namespace ActionKind

/-- All kinds. -/
def all : List ActionKind :=
  [.query, .first, .run, .kvGet, .kvPut, .kvDelete, .r2Get, .r2Put, .r2Delete, .fetch]

/-- The name that actions of a kind have. -/
def name : ActionKind → String
  | .query => "d1.query"
  | .first => "d1.first"
  | .run => "d1.run"
  | .kvGet => "kv.get"
  | .kvPut => "kv.put"
  | .kvDelete => "kv.delete"
  | .r2Get => "r2.get"
  | .r2Put => "r2.put"
  | .r2Delete => "r2.delete"
  | .fetch => "fetch"

lemma find?_name (kind : ActionKind) : all.find? (·.name == kind.name) = some kind := by
  cases kind <;> decide

lemma name_injective : Function.Injective name := by
  intro a b h
  have ha := find?_name a
  rw [h, find?_name b] at ha
  exact (Option.some.inj ha).symm

end ActionKind

/-- What an action does. -/
def Action.kind : Action → ActionKind
  | .sql .query .. => .query
  | .sql .first .. => .first
  | .sql .run .. => .run
  | .kvGet .. => .kvGet
  | .kvPut .. => .kvPut
  | .kvDelete .. => .kvDelete
  | .r2Get .. => .r2Get
  | .r2Put .. => .r2Put
  | .r2Delete .. => .r2Delete
  | .fetch .. => .fetch

lemma Action.name_kind : ∀ action : Action, action.kind.name = action.name
  | .sql .query .. | .sql .first .. | .sql .run .. => rfl
  | .kvGet .. | .kvPut .. | .kvDelete .. => rfl
  | .r2Get .. | .r2Put .. | .r2Delete .. => rfl
  | .fetch .. => rfl

lemma Action.kind_eq_of_name_eq {a b : Action} (h : a.name = b.name) : a.kind = b.kind :=
  ActionKind.name_injective (by rw [a.name_kind, b.name_kind, h])

namespace Worker

/-! ## Arguments

An argument is given back by reading JSON from the front of its text.  What follows it is a comma or
a bracket, neither of which could go on a value. -/

/-- An argument of a call. -/
inductive Argument where
  /-- A value as it is. -/
  | plain (value : Json)
  /-- A value whose placeholders are resolved. -/
  | resolved (value : Json)

namespace Argument

/-- The text of an argument. -/
def text : Argument → String
  | .plain v => v.encode
  | .resolved v => Worker.resolved v

/-- Whether placeholders are resolved in an argument. -/
def isResolved : Argument → Bool
  | .plain _ => false
  | .resolved _ => true

lemma toList_text_plain (v : Json) : (text (.plain v)).toList = v.text := by
  simp [text, Json.encode]

lemma toList_text_resolved (v : Json) :
    (text (.resolved v)).toList = "resolve(".toList ++ v.text ++ ", scope)".toList := by
  simp [text, Worker.resolved, Json.encode]

/-- An argument that is followed by a comma or a bracket can be told from its text. -/
lemma text_append_cancel {a b : Argument} {r₁ r₂ : List Char} (h : a.isResolved = b.isResolved)
    (h₁ : Json.Delimited r₁) (h₂ : Json.Delimited r₂)
    (heq : a.text.toList ++ r₁ = b.text.toList ++ r₂) : a = b ∧ r₁ = r₂ := by
  cases a with
  | plain v =>
      cases b with
      | plain w =>
          rw [toList_text_plain, toList_text_plain] at heq
          obtain ⟨rfl, hrest⟩ := Json.text_append_cancel h₁ h₂ heq
          exact ⟨rfl, hrest⟩
      | resolved w => exact absurd h (by simp [isResolved])
  | resolved v =>
      cases b with
      | plain w => exact absurd h (by simp [isResolved])
      | resolved w =>
          simp only [toList_text_resolved, List.append_assoc, List.append_cancel_left_eq] at heq
          have hcomma : ∀ r : List Char, Json.Delimited (", scope)".toList ++ r) := fun r =>
            Ends.cons (by decide) _
          obtain ⟨rfl, hrest⟩ := Json.text_append_cancel (hcomma r₁) (hcomma r₂) heq
          exact ⟨rfl, List.append_cancel_left hrest⟩

end Argument

/-- The texts of arguments, with commas between them. -/
def argumentsText (arguments : List Argument) : String :=
  ", ".intercalate (arguments.map Argument.text)

lemma toList_argumentsText_cons_cons (a b : Argument) (rest : List Argument) :
    (argumentsText (a :: b :: rest)).toList
      = a.text.toList ++ (", ".toList ++ (argumentsText (b :: rest)).toList) := by
  simp [argumentsText, String.toList_intercalate, List.intercalate]

/-- **Arguments can be told from their text**, given which of them are resolved. -/
theorem argumentsText_inj : ∀ {as bs : List Argument},
    as.map Argument.isResolved = bs.map Argument.isResolved →
      (argumentsText as).toList ++ [')'] = (argumentsText bs).toList ++ [')'] → as = bs
  | [], [], _, _ => rfl
  | [], _ :: _, h, _ => absurd h (by simp)
  | _ :: _, [], h, _ => absurd h (by simp)
  | [a], [b], h, heq => by
      have hbracket : Json.Delimited [')'] := Ends.cons (by decide) _
      obtain ⟨rfl, -⟩ := Argument.text_append_cancel (by simpa using h) hbracket hbracket heq
      rfl
  | [_], _ :: _ :: _, h, _ => absurd h (by simp)
  | _ :: _ :: _, [_], h, _ => absurd h (by simp)
  | a :: a' :: as, b :: b' :: bs, h, heq => by
      have hcomma : ∀ r : List Char, Json.Delimited (", ".toList ++ r) := fun r =>
        Ends.cons (by decide) _
      rw [List.map_cons (l := a' :: as), List.map_cons (l := b' :: bs), List.cons.injEq] at h
      rw [toList_argumentsText_cons_cons, toList_argumentsText_cons_cons, List.append_assoc,
        List.append_assoc, List.append_assoc, List.append_assoc] at heq
      obtain ⟨rfl, hrest⟩ := Argument.text_append_cancel h.1 (hcomma _) (hcomma _) heq
      rw [argumentsText_inj h.2 (List.append_cancel_left hrest)]

/-! ## Calls

The pieces of a call are a table by kinds of actions: the function, what stands before the
arguments, and the arguments.  An action of each kind is looked up there once, and the other lemmas
are about the table. -/

/-- The function that performs actions of a kind. -/
def function : ActionKind → String
  | .query => "db." ++ sqlFunction .query
  | .first => "db." ++ sqlFunction .first
  | .run => "db." ++ sqlFunction .run
  | .kvGet => "keys.get"
  | .kvPut => "keys.put"
  | .kvDelete => "keys.remove"
  | .r2Get => "files.get"
  | .r2Put => "files.put"
  | .r2Delete => "files.remove"
  | .fetch => "outbound"

/-- What stands before the arguments. -/
def opening (kind : ActionKind) : String := if kind = .fetch then "(" else "(env, "

/-- The arguments of the call that performs an action, given the name of the binding. -/
def arguments (binding : String) : Action → List Argument
  | .sql _ statement arguments =>
    [.plain (.string binding), .plain (.string statement), .resolved (.array arguments)]
  | .kvGet key format =>
    [.plain (.string binding), .resolved (.string key), .plain (.string format.name)]
  | .kvPut key value lifetime =>
    [.plain (.string binding), .resolved (.string key), .resolved value,
      .plain ((lifetime.map fun n => Json.nat n.toNat).getD .null)]
  | .kvDelete key | .r2Get key | .r2Delete key =>
    [.plain (.string binding), .resolved (.string key)]
  | .r2Put key value contentType =>
    [.plain (.string binding), .resolved (.string key), .resolved value,
      .plain (.optionalString contentType)]
  | .fetch url method headers body =>
    [.resolved (.string url), .plain (.string method), .resolved (Action.textsJson headers),
      .resolved (body.getD .null)]

/-- The call that performs an action with its binding. -/
def callText (binding : String) (action : Action) : String :=
  function action.kind ++ opening action.kind ++ argumentsText (arguments binding action) ++ ")"

/-- **A call is made of a function and arguments**, if the binding that it needs is there. -/
theorem call?_eq {binding : Option String} {action : Action}
    (h : (action.resource?.isNone || binding.isSome) = true) :
    call? binding action = some (callText (binding.getD "") action) := by
  cases binding with
  | none =>
      cases action with
      | fetch url method headers body => rfl
      | _ => exact absurd h (by simp [Action.resource?])
  | some name =>
      cases action with
      | sql verb => cases verb <;> rfl
      | _ => rfl

lemma valueFormat_name_inj : ∀ {a b : ValueFormat}, a.name = b.name → a = b
  | .text, .text, _ | .json, .json, _ => rfl
  | .text, .json, h | .json, .text, h => absurd h (by decide)

lemma textsJson_inj {a b : Dictionary String} (h : Action.textsJson a = Action.textsJson b) :
    a = b := by
  have hinj : Function.Injective fun e : String × String => (e.1, Json.string e.2) := by
    rintro ⟨k, v⟩ ⟨l, w⟩ heq
    simpa using heq
  obtain ⟨entries, sorted⟩ := a
  obtain ⟨entries', sorted'⟩ := b
  have hentries : entries = entries' := List.map_injective_iff.mpr hinj (Json.object.inj h)
  subst hentries
  rfl

lemma lifetime_inj {a b : Option UInt64}
    (h : (a.map fun n => Json.nat n.toNat).getD .null
      = (b.map fun n => Json.nat n.toNat).getD .null) : a = b := by
  cases a <;> cases b <;> simp_all [Json.nat, UInt64.toNat_inj]

lemma optionalString_inj {a b : Option String}
    (h : Json.optionalString a = Json.optionalString b) : a = b := by
  cases a <;> cases b <;> simp_all [Json.optionalString]

/-- Actions of a kind have the same arguments resolved. -/
lemma isResolved_arguments {a b : Action} (h : a.kind = b.kind) (n m : String) :
    (arguments n a).map Argument.isResolved = (arguments m b).map Argument.isResolved := by
  have hkind : ∀ (n : String) (a : Action), (arguments n a).map Argument.isResolved
      = match a.kind with
        | .query | .first | .run => [false, false, true]
        | .kvGet => [false, true, false]
        | .kvPut | .r2Put => [false, true, true, false]
        | .kvDelete | .r2Get | .r2Delete => [false, true]
        | .fetch => [true, false, true, true] := by
    intro n a
    cases a with
    | sql verb => cases verb <;> rfl
    | _ => rfl
  rw [hkind, hkind, h]

/-- **The arguments of a call give the parameters of its action** and, if there is one, the name of
its binding. -/
theorem eq_of_arguments {a b : Action} {n m : String} (hkind : a.kind = b.kind)
    (h : arguments n a = arguments m b) :
    a.normal = b.normal ∧ (a.resource?.isSome → n = m) := by
  cases a <;> cases b
  case sql.sql verb _ _ verb' _ _ =>
    have hverb : verb = verb' := by cases verb <;> cases verb' <;> simp_all [Action.kind]
    simp_all [arguments, Action.normal]
  case kvGet.kvGet =>
    simp only [arguments, List.cons.injEq, Argument.plain.injEq, Argument.resolved.injEq,
      Json.string.injEq] at h
    obtain ⟨rfl, rfl, hformat, -⟩ := h
    exact ⟨by rw [valueFormat_name_inj hformat], fun _ => rfl⟩
  case kvPut.kvPut =>
    simp only [arguments, List.cons.injEq, Argument.plain.injEq, Argument.resolved.injEq,
      Json.string.injEq] at h
    obtain ⟨rfl, rfl, rfl, hlifetime, -⟩ := h
    exact ⟨by rw [lifetime_inj hlifetime], fun _ => rfl⟩
  case r2Put.r2Put =>
    simp only [arguments, List.cons.injEq, Argument.plain.injEq, Argument.resolved.injEq,
      Json.string.injEq] at h
    obtain ⟨rfl, rfl, rfl, hcontentType, -⟩ := h
    exact ⟨by rw [optionalString_inj hcontentType], fun _ => rfl⟩
  case fetch.fetch =>
    simp only [arguments, List.cons.injEq, Argument.plain.injEq, Argument.resolved.injEq,
      Json.string.injEq] at h
    obtain ⟨rfl, rfl, hheaders, hbody, -⟩ := h
    rw [Action.normal, Action.normal, textsJson_inj hheaders, presentBody_eq_iff.mpr hbody]
    exact ⟨rfl, fun hresource => absurd hresource (by simp [Action.resource?])⟩
  case kvDelete.kvDelete | r2Get.r2Get | r2Delete.r2Delete => simp_all [arguments]
  -- the other pairs are of different kinds
  all_goals
    try rename SqlVerb => verb
    try cases verb
    all_goals exact absurd hkind (by simp [Action.kind])

end Worker

end WorkerGen
