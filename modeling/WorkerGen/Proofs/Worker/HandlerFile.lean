import Mathlib
import WorkerGen.Proofs.Worker.Calls
import WorkerGen.Proofs.Worker.Rendering

/-!
# What the file of a handler says

The file of a handler is written from texts of the inputs: names, statements, keys, JSON values.
Whatever these hold, each step has its own line (`within_handlerLines`), and nothing is lost: two
handlers with the same file are the same, except for what a file never shows (`handlerText_eq_iff`).

A file does not show where the binding of a step comes from, a binding that a step has no use for,
and whether a body that is null was written or left out.  `HandlerContent.normal` leaves these out.

The proof goes from the file down to single texts and back.  A file gives its lines, since none of
them holds a line end of its own; the lines at fixed places give the path, the method and the
response; those of each step give its name and its call; and a call gives the action and the
binding.  That the lines show no more than the normal form is the easy half, by rewriting.
`handler_faithful` states both halves, with how many lines there are and on which of them each step
stands.
-/

namespace WorkerGen

open LineRule

/-! ## What a file shows

The normal form is a content of the same kind.  A content and its normal form have the same file, so
an equation of files can be about normal forms from the start. -/

/-- A step without what its lines do not show. -/
def Step.normal (s : Step) : Step :=
  ⟨s.name, if s.action.resource?.isSome then s.binding.map fun b => ⟨b.name, .explicit⟩ else none,
    s.action.normal⟩

/-- A response without a body that is null. -/
def Response.normal (r : Response) : Response := { r with body := presentBody r.body }

/-- The content of a handler without what its file does not show. -/
def HandlerContent.normal (content : HandlerContent) : HandlerContent :=
  ⟨content.steps.map Step.normal, content.response.map Response.normal, content.defaults⟩

namespace Worker

/-! ## Lines

Each text goes onto a line as JSON, or is one of the names and words that the generator brings.
Where a line has to be found again its number is known from the number of steps. -/

lemma within_toString (n : ℕ) : LineRule.lineFeed.Within (toString n) := by
  intro c hc
  rw [Nat.toString_eq_repr, Nat.toList_repr] at hc
  have hdigit := isDigit_of_mem_decimalDigits hc
  have hne : c ≠ '\n' := by rintro rfl; revert hdigit; decide
  simpa [ends] using hne

lemma within_actionName (action : Action) : LineRule.lineFeed.Within action.name := by
  rw [← action.name_kind]
  cases action.kind <;> exact within_ofList (by decide)

lemma within_argument (a : Argument) : LineRule.lineFeed.Within a.text := by
  cases a with
  | plain v => exact within_encode v
  | resolved v =>
      have hopen : LineRule.lineFeed.Within "resolve(" := within_ofList (by decide)
      have hclose : LineRule.lineFeed.Within ", scope)" := within_ofList (by decide)
      unfold Argument.text Worker.resolved
      exact within_append.mpr ⟨within_append.mpr ⟨hopen, within_encode v⟩, hclose⟩

lemma within_argumentsText : ∀ as : List Argument, LineRule.lineFeed.Within (argumentsText as)
  | [] => within_ofList (by decide)
  | [a] => within_argument a
  | a :: b :: rest => by
      have hcomma : LineRule.lineFeed.Within ", " := within_ofList (by decide)
      have hrest := within_argumentsText (b :: rest)
      intro c hc
      rw [toList_argumentsText_cons_cons, List.mem_append, List.mem_append] at hc
      rcases hc with hc | hc | hc
      · exact within_argument a c hc
      · exact hcomma c hc
      · exact hrest c hc

lemma within_callText (binding : String) (action : Action) :
    LineRule.lineFeed.Within (callText binding action) := by
  have hfunction : ∀ kind : ActionKind, LineRule.lineFeed.Within (function kind) := by
    intro kind
    cases kind <;> simp [function, sqlFunction, LineRule.Within, ends]
  have hopening : ∀ kind : ActionKind, LineRule.lineFeed.Within (opening kind) := by
    intro kind
    rw [opening]
    split
    · exact within_ofList (by decide)
    · exact within_ofList (by decide)
  have hclose : LineRule.lineFeed.Within ")" := within_ofList (by decide)
  unfold callText
  rw [within_append, within_append, within_append]
  exact ⟨⟨⟨hfunction _, hopening _⟩, within_argumentsText _⟩, hclose⟩

/-- The statement of a step with its call. -/
lemma statement_eq {s : Step} (h : s.isBound = true) : statement s =
    "  last = results[" ++ quote s.name ++ "] = await " ++
      callText ((s.binding.map (·.name)).getD "") s.action ++ ";" := by
  have hbound : (s.action.resource?.isNone || (s.binding.map (·.name)).isSome) = true := by
    rw [Option.isSome_map]
    exact h
  unfold statement
  rw [call?_eq hbound, Option.getD_some]

lemma within_boundLines {s : Step} (h : s.isBound = true) (index : ℕ) :
    ∀ line ∈ boundLines index s, LineRule.lineFeed.Within line := by
  have hfixed : ∀ text ∈ ["", "  // ", ". ", "  last = results[", "] = await ", ";"],
      LineRule.lineFeed.Within text := by
    repeat refine List.forall_mem_cons.mpr ⟨within_ofList (by decide), ?_⟩
    simp
  simp only [List.forall_mem_cons] at hfixed
  obtain ⟨hempty, hcomment, hdot, hlast, hawait, hsemicolon, -⟩ := hfixed
  rw [boundLines, statement_eq h]
  simp only [List.forall_mem_cons, within_append]
  exact ⟨hempty, ⟨⟨⟨hcomment, within_toString _⟩, hdot⟩, within_actionName _⟩,
    ⟨⟨⟨⟨hlast, within_quote _⟩, hawait⟩, within_callText _ _⟩, hsemicolon⟩, by simp⟩

lemma within_allBoundLines : ∀ {steps : List Step} (_ : steps.all Step.isBound = true) (index : ℕ),
    ∀ line ∈ allBoundLines index steps, LineRule.lineFeed.Within line
  | [], _, _ => by simp [allBoundLines]
  | s :: rest, h, index => by
      rw [List.all_cons, Bool.and_eq_true] at h
      rw [allBoundLines, List.forall_mem_append]
      exact ⟨within_boundLines h.1 index, within_allBoundLines h.2 (index + 1)⟩

/-- The response of a handler as JSON. -/
def responseJson (content : HandlerContent) : Json :=
  (content.response.map Response.toJson).getD .null

/-- The content of a handler without steps. -/
def blank : HandlerContent := ⟨[], none, default⟩

/-- Only two lines before the steps depend on the handler. -/
lemma handlerHead_eq (content : HandlerContent) : handlerHead content =
    (handlerHead blank).take 7 ++
      ["export const DEFAULTS = " ++ content.defaults.toFullJson.encode ++ ";", "",
        "const RESPONSE = " ++ (responseJson content).encode ++ ";"] ++
      (handlerHead blank).drop 10 := rfl

lemma within_handlerHead (content : HandlerContent) :
    ∀ line ∈ handlerHead content, LineRule.lineFeed.Within line := by
  have hfixed : ∀ text ∈ ["export const DEFAULTS = ", ";", "", "const RESPONSE = "],
      LineRule.lineFeed.Within text := by
    repeat refine List.forall_mem_cons.mpr ⟨within_ofList (by decide), ?_⟩
    simp
  have htop : ∀ line ∈ (handlerHead blank).take 7, LineRule.lineFeed.Within line := by
    simp only [handlerHead, banner, List.take_succ_cons, List.take_zero]
    repeat refine List.forall_mem_cons.mpr ⟨within_ofList (by decide), ?_⟩
    simp
  have hbottom : ∀ line ∈ (handlerHead blank).drop 10, LineRule.lineFeed.Within line := by
    simp only [handlerHead, List.drop_succ_cons, List.drop_zero]
    repeat refine List.forall_mem_cons.mpr ⟨within_ofList (by decide), ?_⟩
    simp
  simp only [List.forall_mem_cons] at hfixed
  obtain ⟨hdefaults, hsemicolon, hempty, hresponse, -⟩ := hfixed
  rw [handlerHead_eq, List.forall_mem_append, List.forall_mem_append]
  simp only [List.forall_mem_cons, within_append]
  exact ⟨⟨htop, ⟨⟨hdefaults, within_encode _⟩, hsemicolon⟩, hempty,
    ⟨⟨hresponse, within_encode _⟩, hsemicolon⟩, by simp⟩, hbottom⟩

/-- The lines of the file of a handler. -/
def handlerLines (content : HandlerContent) : List String :=
  handlerHead content ++ allBoundLines 0 content.steps ++ handlerTail

/-- No line of a file holds a line feed, whatever the texts in it hold. -/
lemma within_handlerLines {content : HandlerContent} (h : content.isBound = true) :
    ∀ line ∈ handlerLines content, LineRule.lineFeed.Within line := by
  have htail : ∀ line ∈ handlerTail, LineRule.lineFeed.Within line := by
    unfold handlerTail
    repeat refine List.forall_mem_cons.mpr ⟨within_ofList (by decide), ?_⟩
    simp
  rw [handlerLines, List.forall_mem_append, List.forall_mem_append]
  exact ⟨⟨within_handlerHead content, within_allBoundLines h 0⟩, htail⟩

lemma length_allBoundLines : ∀ (index : ℕ) (steps : List Step),
    (allBoundLines index steps).length = 3 * steps.length
  | _, [] => rfl
  | index, s :: rest => by
      rw [allBoundLines, List.length_append, length_allBoundLines (index + 1) rest, boundLines]
      simp
      omega

lemma getElem?_allBoundLines : ∀ {steps : List Step} {k : ℕ} {s : Step} (index : ℕ),
    steps[k]? = some s → (allBoundLines index steps)[3 * k + 2]? = some (statement s)
  | [], k, s, _, h => absurd h (by simp)
  | t :: rest, 0, s, index, h => by
      rw [List.getElem?_cons_zero, Option.some_inj] at h
      rw [h]
      rfl
  | t :: rest, k + 1, s, index, h => by
      rw [List.getElem?_cons_succ] at h
      exact getElem?_allBoundLines (index + 1) h

lemma length_handlerLines (content : HandlerContent) :
    (handlerLines content).length = 18 + 3 * content.steps.length := by
  rw [handlerLines, List.length_append, List.length_append, length_allBoundLines]
  simp [handlerHead, handlerTail]
  omega

lemma getElem?_handlerLines {content : HandlerContent} {k : ℕ} {s : Step}
    (h : content.steps[k]? = some s) :
    (handlerLines content)[17 + 3 * k]? = some (statement s) := by
  have hstep := getElem?_allBoundLines 0 h
  have hhead : (handlerHead content).length = 15 := rfl
  have hlt : 3 * k + 2 < (allBoundLines 0 content.steps).length :=
    (List.getElem?_eq_some_iff.mp hstep).1
  rw [handlerLines, List.append_assoc, List.getElem?_append_right (by omega), hhead,
    List.getElem?_append_left (by omega), show 17 + 3 * k - 15 = 3 * k + 2 by omega, hstep]

/-! ## What the lines give back

A line is a fixed beginning, a text from the inputs and a fixed end, and the text is given back once
it is known where it ends. -/

lemma toFullJson_inj {a b : Defaults} (h : a.toFullJson = b.toFullJson) : a = b := by
  obtain ⟨d1, kv, r2⟩ := a
  obtain ⟨d1', kv', r2'⟩ := b
  simp only [Defaults.toFullJson, Json.object.injEq, List.cons.injEq, Prod.mk.injEq, true_and,
    and_true] at h
  rw [optionalString_inj h.1, optionalString_inj h.2.1, optionalString_inj h.2.2]

lemma normal_eq_of_toJson {a b : Response} (h : a.toJson = b.toJson) : a.normal = b.normal := by
  obtain ⟨status, headers, body⟩ := a
  obtain ⟨status', headers', body'⟩ := b
  simp only [Response.toJson, Json.object.injEq, List.cons.injEq, Prod.mk.injEq, true_and,
    and_true, Json.nat, Json.number.injEq, JsonNumber.int.injEq, Nat.cast_inj,
    UInt16.toNat_inj] at h
  obtain ⟨rfl, hheaders, hbody⟩ := h
  rw [Response.normal, Response.normal, textsJson_inj hheaders, presentBody_eq_iff.mpr hbody]

lemma toJson_normal (r : Response) : r.normal.toJson = r.toJson := by
  simp only [Response.toJson, Response.normal, getD_presentBody]

lemma responseJson_eq_iff {a b : HandlerContent} : responseJson a = responseJson b ↔
    a.response.map Response.normal = b.response.map Response.normal := by
  constructor
  · intro h
    cases ha : a.response <;> cases hb : b.response <;> simp only [responseJson, ha, hb] at h
    case none.none => rfl
    case some.some => exact congrArg some (normal_eq_of_toJson h)
    case none.some => exact absurd h (by simp [Response.toJson])
    case some.none => exact absurd h (by simp [Response.toJson])
  · intro h
    have hnormal : ∀ c : HandlerContent,
        responseJson c = ((c.response.map Response.normal).map Response.toJson).getD .null := by
      intro c
      cases hc : c.response <;> simp [responseJson, hc, toJson_normal]
    rw [hnormal, hnormal, h]

lemma handlerHead_eq_iff {a b : HandlerContent} : handlerHead a = handlerHead b ↔
    a.response.map Response.normal = b.response.map Response.normal ∧ a.defaults = b.defaults := by
  rw [← responseJson_eq_iff]
  constructor
  · intro h
    simp only [handlerHead, List.cons.injEq, String.append_left_inj, String.append_right_inj,
      true_and, and_true] at h
    exact ⟨Json.encode_injective h.2, toFullJson_inj (Json.encode_injective h.1)⟩
  · rintro ⟨hresponse, hdefaults⟩
    rw [handlerHead_eq a, handlerHead_eq b, hresponse, hdefaults]

/-! ### The lines of steps

A step has two lines, of which one is a comment with its name and action.  The action is told from
the comment first, and then the call gives the rest. -/

/-- The text of a call gives its action and binding, given what the action does. -/
lemma callText_inj {a b : Action} {n m : String} (hkind : a.kind = b.kind)
    (h : callText n a = callText m b) : a.normal = b.normal ∧ (a.resource?.isSome → n = m) := by
  unfold callText at h
  rw [hkind] at h
  simp only [String.append_assoc, String.append_right_inj] at h
  have htext := congrArg String.toList h
  rw [String.toList_append, String.toList_append] at htext
  exact eq_of_arguments hkind (argumentsText_inj (isResolved_arguments hkind n m) htext)

lemma quote_append_cancel {s t u v : String} (h : quote s ++ u = quote t ++ v) : s = t ∧ u = v := by
  have htext := congrArg String.toList h
  simp only [String.toList_append, toList_quote] at htext
  obtain ⟨hst, huv⟩ := Json.literal_append_cancel htext
  exact ⟨hst, String.toList_inj.mp huv⟩

/-- Steps are shown alike if they have the same name, action and name of a binding. -/
lemma step_normal_eq {s t : Step} (hname : s.name = t.name)
    (haction : s.action.normal = t.action.normal)
    (hbinding : s.action.resource?.isSome →
      s.binding.map (·.name) = t.binding.map (·.name)) : s.normal = t.normal := by
  have hresource : s.action.resource? = t.action.resource? := by
    rw [← s.action.resource?_normal, haction, t.action.resource?_normal]
  have hmap : ∀ binding : Option Binding, (binding.map fun b => ⟨b.name, .explicit⟩)
      = (binding.map (·.name)).map fun name => (⟨name, .explicit⟩ : Binding) := by
    intro binding
    rw [Option.map_map]
    rfl
  rw [Step.normal, Step.normal, hname, haction, ← hresource, hmap, hmap]
  split_ifs with h
  · rw [hbinding h]
  · rfl

lemma exists_binding {s : Step} (h : s.isBound = true) (hresource : s.action.resource?.isSome) :
    ∃ name, s.binding.map (·.name) = some name := by
  obtain ⟨resource, hsome⟩ := Option.isSome_iff_exists.mp hresource
  rw [Step.isBound, hsome, Option.isNone_some, Bool.false_or] at h
  obtain ⟨b, hb⟩ := Option.isSome_iff_exists.mp h
  exact ⟨b.name, by rw [hb]; rfl⟩

/-- **The lines of a step give the step**, as far as they show it. -/
theorem boundLines_inj {s t : Step} {index : ℕ} (hs : s.isBound = true) (ht : t.isBound = true)
    (h : boundLines index s = boundLines index t) : s.normal = t.normal := by
  rw [boundLines, boundLines, statement_eq hs, statement_eq ht] at h
  simp only [List.cons.injEq, String.append_assoc, String.append_right_inj, true_and,
    and_true] at h
  obtain ⟨hname, hstatement⟩ := h
  obtain ⟨hresult, hrest⟩ := quote_append_cancel hstatement
  rw [String.append_right_inj, String.append_left_inj] at hrest
  obtain ⟨haction, hbinding⟩ := callText_inj (Action.kind_eq_of_name_eq hname) hrest
  refine step_normal_eq hresult haction fun hresource => ?_
  have hresource' : t.action.resource?.isSome := by
    rw [← t.action.resource?_normal, ← haction, s.action.resource?_normal]
    exact hresource
  obtain ⟨n, hn⟩ := exists_binding hs hresource
  obtain ⟨m, hm⟩ := exists_binding ht hresource'
  have hnames := hbinding hresource
  rw [hn, hm, Option.getD_some, Option.getD_some] at hnames
  rw [hn, hm, hnames]

lemma call?_normal (s : Step) : call? (s.normal.binding.map (·.name)) s.normal.action
    = call? (s.binding.map (·.name)) s.action := by
  obtain ⟨name, binding, action⟩ := s
  cases action with
  | fetch => simp only [Step.normal, Action.normal, call?, getD_presentBody]
  | _ => cases binding <;> rfl

lemma actionName_normal (action : Action) : action.normal.name = action.name := by
  cases action with
  | sql verb => cases verb <;> rfl
  | _ => rfl

/-- The lines of a step show no more of it. -/
lemma boundLines_normal (index : ℕ) (s : Step) :
    boundLines index s.normal = boundLines index s := by
  have hname : s.normal.action.name = s.action.name := actionName_normal s.action
  have hstatement : statement s.normal = statement s := by
    unfold statement
    rw [call?_normal]
    rfl
  rw [boundLines, boundLines, hname, hstatement]

/-- **The lines of steps give the steps**, as far as they show them. -/
theorem allBoundLines_inj : ∀ {as bs : List Step} {index : ℕ}, as.all Step.isBound = true →
    bs.all Step.isBound = true → allBoundLines index as = allBoundLines index bs →
      as.map Step.normal = bs.map Step.normal
  | [], [], _, _, _, _ => rfl
  | [], _ :: _, _, _, _, h => absurd h (by simp [allBoundLines, boundLines])
  | _ :: _, [], _, _, _, h => absurd h (by simp [allBoundLines, boundLines])
  | a :: as, b :: bs, index, ha, hb, h => by
      rw [List.all_cons, Bool.and_eq_true] at ha hb
      have hlength : (boundLines index a).length = (boundLines index b).length := by
        simp only [boundLines, List.length_cons, List.length_nil]
      rw [allBoundLines, allBoundLines] at h
      obtain ⟨hstep, hrest⟩ := List.append_inj h hlength
      rw [List.map_cons, List.map_cons, boundLines_inj ha.1 hb.1 hstep,
        allBoundLines_inj ha.2 hb.2 hrest]

lemma allBoundLines_normal : ∀ (index : ℕ) (steps : List Step),
    allBoundLines index (steps.map Step.normal) = allBoundLines index steps
  | _, [] => rfl
  | index, s :: rest => by
      rw [List.map_cons, allBoundLines, allBoundLines, boundLines_normal,
        allBoundLines_normal (index + 1) rest]

/-! ### Whole files

Two files are equal just if their lines are, and each line is known by its number. -/

/-- **A file shows a handler up to its normal form**, and no more of it. -/
theorem handlerText_eq_iff {a b : HandlerContent} (ha : a.isBound = true) (hb : b.isBound = true) :
    handlerText a = handlerText b ↔ a.normal = b.normal := by
  constructor
  · intro h
    have hlines : handlerLines a = handlerLines b :=
      ofLines_inj (within_handlerLines ha) (within_handlerLines hb) h
    have hlength : (handlerHead a).length = (handlerHead b).length := by
      simp only [handlerHead, List.length_cons, List.length_nil]
    rw [handlerLines, handlerLines, List.append_left_inj] at hlines
    obtain ⟨hhead, hsteps⟩ := List.append_inj hlines hlength
    obtain ⟨hresponse, hdefaults⟩ := handlerHead_eq_iff.mp hhead
    rw [HandlerContent.normal, HandlerContent.normal, allBoundLines_inj ha hb hsteps, hresponse,
      hdefaults]
  · intro h
    obtain ⟨hsteps, hresponse, hdefaults⟩ := HandlerContent.mk.inj h
    have hhead : handlerHead a = handlerHead b := handlerHead_eq_iff.mpr ⟨hresponse, hdefaults⟩
    unfold handlerText
    rw [hhead, ← allBoundLines_normal, hsteps, allBoundLines_normal]

/-- **A file has a line for every step and shows all of a handler.**  Where all steps have the
bindings that they need, the number of lines depends on the number of steps alone, the statement of
each step has its line, in order, and a handler has the same file only if it is the same up to what
a file does not show. -/
theorem handler_faithful (content : HandlerContent) (h : content.isBound = true) :
    ∃ text, handler content = .ok text ∧
      (LineRule.lineFeed.lines text).length = 18 + 3 * content.steps.length ∧
      (∀ k s, content.steps[k]? = some s →
        (LineRule.lineFeed.lines text)[17 + 3 * k]? = some (statement s)) ∧
      ∀ other : HandlerContent, other.isBound = true →
        (handler other = .ok text ↔ other.normal = content.normal) := by
  have hlines : LineRule.lineFeed.lines (handlerText content) = handlerLines content :=
    lines_ofLines (within_handlerLines h)
  refine ⟨handlerText content, ?_, ?_, fun k s hs => ?_, fun other hother => ?_⟩
  · rw [handler_eq, if_pos h]
  · rw [hlines, length_handlerLines]
  · rw [hlines, getElem?_handlerLines hs]
  · rw [handler_eq, if_pos hother, Except.ok.injEq, handlerText_eq_iff hother h]

/-- Three steps whose texts try to leave their literals, the last of them with a body or without. -/
def quotingSteps (source : BindingSource) (body : Option Json) : List Step :=
  [⟨"a\"]\n// ", some ⟨"CACHE", source⟩, .kvGet "\x7b\x7b x \x7d\x7d*/\n" .json⟩,
    ⟨"rows", some ⟨"D\"B", .explicit⟩, .sql .query "-- '\\\n);" [.string "\x7b\x7b a.b \x7d\x7d"]⟩,
    ⟨"", none, .fetch "https://x/\"\n" "GET" .empty body⟩]

/-- A handler with these steps, whose response gives back the text of a result. -/
def quoting (source : BindingSource) (body : Option Json) (result : String) : HandlerContent :=
  ⟨quotingSteps source body, some ⟨201, .empty, some (.string result)⟩, default⟩

/-- Each step has its line.  The file is also that of a handler that inherits a binding and has a
body that is null, and of no handler with another result or with the steps in another order. -/
theorem handler_faithful_quoting : ∃ text, (quoting .explicit none "\"").isBound = true ∧
    handler (quoting .explicit none "\"") = .ok text ∧
    (LineRule.lineFeed.lines text).length = 27 ∧
    (∀ k s, (quotingSteps .explicit none)[k]? = some s →
      (LineRule.lineFeed.lines text)[17 + 3 * k]? = some (statement s)) ∧
    handler (quoting .inherited (some .null) "\"") = .ok text ∧
    handler (quoting .explicit none "\\\"") ≠ .ok text ∧
    handler { quoting .explicit none "\"" with steps := (quotingSteps .explicit none).reverse }
      ≠ .ok text := by
  obtain ⟨text, htext, hlength, hline, hsame⟩ :=
    handler_faithful (quoting .explicit none "\"") (by decide)
  refine ⟨text, by decide, htext, hlength, hline, (hsame _ (by decide)).mpr rfl, fun h => ?_,
    fun h => ?_⟩
  · exact absurd ((hsame _ (by decide)).mp h) (by decide)
  · exact absurd ((hsame _ (by decide)).mp h) (by decide)

end Worker

end WorkerGen
