import Mathlib
import WorkerGen.Api.Reading
import WorkerGen.Api.Serialized
import WorkerGen.Proofs.Api.Declarations
import WorkerGen.Proofs.Api.Regular
import WorkerGen.Proofs.Dictionary

/-!
# Descriptions and their JSON form

A description that a document gives is decoded from its JSON form as it was, but for one thing: a
body that is null counts as absent (`ofJson_toJson_of_parse`).  Absent bodies are written as null,
and a document can give a null that is there, by a number that JSON has not (`not_decoded_nanBody`).

The proof follows the records from the inside out: `Parameters.toAction_members` for the parameters
of an action, `step_toJson`, `operation_toJson` and `pathItem_toJson` for what holds them, and
`api_toJson` for the whole.  Each says what the record of `Format` gives for a JSON value that has
been written.  Documents are read by the same records, so that no field can be known to one of the
two alone; what a document can give at all is bounded by `Api.isRegular_of_parse`.
-/

namespace WorkerGen

/-! ## Bodies that are null

`given` says at each level of a description what is left of it when null counts as absent.  It
changes nothing else, and nothing at all where there is no such body (`Api.given_eq_self_iff`). -/

/-- A body, of which null counts as absent. -/
def Json.given : Option Json → Option Json
  | some .null => none
  | body => body

/-- The same keys with other values. -/
def Listing.map {κ α β : Type} (f : α → β) (l : Listing κ α) : Listing κ β :=
  ⟨l.entries.map fun e => (e.1, f e.2), by rw [List.map_map]; exact l.distinct⟩

/-- The action whose body counts as absent if it is null. -/
def Action.given : Action → Action
  | .fetch url method headers body => .fetch url method headers (Json.given body)
  | action => action

/-- The step with what is given of its action. -/
def StepEntry.given (s : StepEntry) : StepEntry := { s with action := s.action.given }

/-- The response whose body counts as absent if it is null. -/
def Response.given (r : Response) : Response := { r with body := Json.given r.body }

/-- The operation with what is given of its steps and its response. -/
def Operation.given (o : Operation) : Operation :=
  { o with steps := o.steps.map (·.map StepEntry.given), response := o.response.map Response.given }

/-- The description in which a body that is null counts as absent. -/
def Api.given (api : Api) : Api :=
  { api with paths := api.paths.map (Listing.map Operation.given) }

/-! ## Plain values

The fields of a record that are no records themselves: texts, small numbers, words, and values of
any kind.  An absent value is written as null and read as absent, so whatever could be written as
null by itself has to be told apart here. -/

namespace Buffered

lemma ofJson_nat (n : ℕ) : ofJson (.nat n) = .natural n := by
  rw [Json.nat, ofJson, if_neg (by omega), Int.toNat_natCast]

lemma ofJson_ne_null {v : Json} (h : v ≠ .null) : ofJson v ≠ .null := by
  cases v with
  | null => exact absurd rfl h
  | number n =>
      cases n with
      | int n =>
          rw [ofJson]
          split_ifs <;> exact fun heq => by cases heq
      | float x => exact fun heq => by cases heq
  | _ => exact fun heq => by cases heq

lemma toOptional_of_ne_null {α : Type} (read : Buffered → Except Cause α) {b : Buffered}
    (h : b ≠ .null) : b.toOptional read = (read b).map some := by
  cases b with
  | null => exact absurd rfl h
  | _ => rfl

end Buffered

namespace Json

lemma given_some {v : Json} (h : v ≠ .null) : given (some v) = some v := by
  cases v with
  | null => exact absurd rfl h
  | _ => rfl

lemma readOptional_of_ne_null {α : Type} (read : Json → Except Cause α) {v : Json}
    (h : v ≠ .null) : readOptional read v = (read v).map some := by
  cases v with
  | null => exact absurd rfl h
  | _ => rfl

lemma readOptional_body (body : Option Json) :
    readOptional .ok (body.getD .null) = .ok (given body) := by
  rcases body with _ | v
  · rfl
  · cases v <;> rfl

lemma readWord16_nat (n : UInt16) : readWord16 (.nat n.toNat) = .ok n := by
  have hn : n.toNat < 65536 := n.toNat_lt
  simp [nat, readWord16, hn]

lemma readNamed_append {ρ : Type} {step : ρ → String → Json → Except Cause ρ} :
    ∀ {first second : List (String × Json)} {r : ρ}, readNamed step r (first ++ second) =
      readNamed step r first >>= fun r => readNamed step r second
  | [], _, _ => rfl
  | (name, v) :: rest, second, r => by
      rw [List.cons_append, readNamed, readNamed]
      cases step r name v with
      | error cause => rfl
      | ok r => exact readNamed_append

end Json

lemma mapM_map_eq_ok {ε α β γ : Type} {f : β → Except ε γ} {g : α → β} {h : α → γ} :
    ∀ {s : List α}, (∀ a ∈ s, f (g a) = .ok (h a)) → (s.map g).mapM f = .ok (s.map h)
  | [], _ => rfl
  | a :: s, heq => by
      obtain ⟨ha, hs⟩ := List.forall_mem_cons.mp heq
      rw [List.map_cons, List.mapM_cons, ha, mapM_map_eq_ok hs]
      rfl

/-! ## Dictionaries of texts

A dictionary is written in the order of its keys, and putting its entries in again in that order
gives the same dictionary. -/

namespace Format

lemma texts_textsJson (d : Dictionary String) : jsonValue.texts (Action.textsJson d) = .ok d := by
  have hall : ∀ (entries : List (String × String)) (d : Dictionary String),
      Json.readNamed (fun d key c => do return d.insert key (← Json.readText "a string" c)) d
        (entries.map fun e => (e.1, .string e.2))
          = .ok (entries.foldl (fun d e => d.insert e.1 e.2) d) := by
    intro entries
    induction entries with
    | nil => exact fun d => rfl
    | cons e rest ih => exact fun d => ih _
  refine (congrArg (· >>= Pure.pure) (hall d.entries .empty)).trans ?_
  exact congrArg Except.ok d.ofList_entries

end Format

/-- The values of members that are texts are put in one after another. -/
lemma Buffered.foldlM_texts (entries : List (String × String)) (d : Dictionary String) :
    (ofMembers (entries.map fun e => (e.1, .string e.2))).foldlM (fun d (key, value) => do
      let name ← key.toText "a string"
      let text ← value.toText "a string"
      return d.insert name text) d
        = (.ok (entries.foldl (fun d e => d.insert e.1 e.2) d) : Except Cause _) := by
  induction entries generalizing d with
  | nil => rfl
  | cons e rest ih => exact ih _

lemma Buffered.toTexts_textsJson (d : Dictionary String) :
    toTexts (ofJson (Action.textsJson d)) = .ok d := by
  rw [Action.textsJson, ofJson, toTexts]
  exact (foldlM_texts d.entries .empty).trans (congrArg Except.ok d.ofList_entries)

/-! ## Actions

An action is written as members of an object, and is read from parameters.  In between the members
are buffered, which loses nothing of a regular value. -/

namespace Parameters

open Buffered (ofJson ofItems)

/-- The parameters of an action, buffered. -/
def ofMembers (members : List (String × Json)) : Parameters :=
  members.map fun e => (e.1, ofJson e.2)

section
variable {value : Json} {b c : Buffered}

lemma sql_eq_ok {verb : SqlVerb} {statement : String} {arguments : List Json}
    (hb : b.toJsonList = .ok arguments) :
    sql verb [("sql", .text statement), ("params", b)] = .ok (.sql verb statement arguments) := by
  simp [sql, field, text, Buffered.toText, hb, require, bind, Except.bind, pure, Except.pure,
    Except.map]

lemma stored_eq_ok {α : Type} (third key : String) {read : Buffered → Except Cause α}
    {extra : Option α} (hkey : third ≠ "key") (hvalue : third ≠ "value")
    (hb : b.toJson = .ok value) (hc : c.toOptional read = .ok extra) :
    stored third read [("key", .text key), ("value", b), (third, c)]
      = .ok (key, value, extra) := by
  simp [stored, field, text, Buffered.toText, hb, hc, hkey, hvalue, require, bind, Except.bind,
    pure, Except.pure, Except.map]

lemma fetch_eq_ok {url method : String} {headers : Dictionary String} {body : Option Json}
    (hb : b.toTexts = .ok headers) (hc : c.toOptional Buffered.toJson = .ok body) :
    fetch [("url", .text url), ("method", .text method), ("headers", b), ("body", c)]
      = .ok (.fetch url method headers body) := by
  simp [fetch, field, text, Buffered.toText, hb, hc, require, bind, Except.bind, pure, Except.pure,
    Except.map]

end

lemma toOptional_lifetime (lifetime : Option UInt64) :
    (ofJson ((lifetime.map fun n => Json.nat n.toNat).getD .null)).toOptional Buffered.toWord64
      = .ok lifetime := by
  cases lifetime with
  | none => rfl
  | some n =>
      rw [Option.map_some, Option.getD_some, Buffered.ofJson_nat]
      exact congrArg (fun n => Except.ok (some n)) UInt64.ofNat_toNat

lemma toOptional_contentType (contentType : Option String) :
    (ofJson (.optionalString contentType)).toOptional text = .ok contentType := by
  cases contentType <;> rfl

lemma toOptional_body {body : Option Json} (h : ∀ v ∈ body, v.IsRegular) :
    (ofJson (body.getD .null)).toOptional Buffered.toJson = .ok (Json.given body) := by
  rcases body with _ | v
  · rfl
  · by_cases hnull : v = .null
    · rw [hnull]
      rfl
    · rw [Option.getD_some, Buffered.toOptional_of_ne_null _ (Buffered.ofJson_ne_null hnull),
        Buffered.toJson_ofJson (h v rfl), Json.given_some hnull]
      rfl

lemma toAction_kvPut (key : String) (value : Json) (lifetime : Option UInt64) :
    (ofMembers (Action.kvPut key value lifetime).members).toAction = (do
      let (key, value, lifetime) ← stored "ttl" Buffered.toWord64 [("key", .text key),
        ("value", ofJson value), ("ttl", ofJson ((lifetime.map fun n => .nat n.toNat).getD .null))]
      return .kvPut key value lifetime) :=
  rfl

lemma toAction_r2Put (key : String) (value : Json) (contentType : Option String) :
    (ofMembers (Action.r2Put key value contentType).members).toAction = (do
      let (key, value, contentType) ← stored "content_type" text [("key", .text key),
        ("value", ofJson value), ("content_type", ofJson (.optionalString contentType))]
      return .r2Put key value contentType) :=
  rfl

/-- **The parameters that an action is written with give the action again**, but for a body that is
null. -/
theorem toAction_members {action : Action} (h : action.IsRegular) :
    (ofMembers action.members).toAction = .ok action.given := by
  cases action with
  | sql verb statement arguments =>
      have harguments : (ofJson (.array arguments)).toJsonList = .ok arguments :=
        Buffered.toJsonItems_ofItems (Json.areRegular_iff.mpr h)
      cases verb <;> exact sql_eq_ok harguments
  | kvGet key format => cases format <;> rfl
  | kvPut key value lifetime =>
      have hvalue := Buffered.toJson_ofJson (h value (List.mem_singleton.mpr rfl))
      have hstored := stored_eq_ok "ttl" key (by decide) (by decide) hvalue
        (toOptional_lifetime lifetime)
      rw [toAction_kvPut, hstored]
      rfl
  | kvDelete key => rfl
  | r2Get key => rfl
  | r2Put key value contentType =>
      have hvalue := Buffered.toJson_ofJson (h value (List.mem_singleton.mpr rfl))
      have hstored := stored_eq_ok "content_type" key (by decide) (by decide) hvalue
        (toOptional_contentType contentType)
      rw [toAction_r2Put, hstored]
      rfl
  | r2Delete key => rfl
  | fetch url method headers body =>
      exact fetch_eq_ok (Buffered.toTexts_textsJson headers)
        (toOptional_body fun v hv => h v (by simpa [Action.values] using hv))

end Parameters

/-! ## Records

Fields are written in one order and read by name.  A field that is absent is written as null, or
left out, and either is read as absent. -/

namespace Format

lemma info_toJson (i : Info) : jsonValue.info i.toJson = .ok i := by
  obtain ⟨title, version, description⟩ := i
  cases title <;> cases version <;> cases description <;> rfl

lemma defaults_toJson (d : Defaults) : jsonValue.defaults d.toJson = .ok d := by
  obtain ⟨d1, kv, r2⟩ := d
  cases d1 <;> cases kv <;> cases r2 <;> rfl

section
variable {ρ α : Type} {init : ρ} {step : ρ → String → Json → Except Cause ρ}
  {finish : ρ → Except Cause α}

/-- The fields of a record, by name. -/
lemma record_object (name : String) (fields : List String) (members : List (String × Json)) :
    jsonValue.record name fields init step finish (.object members)
      = Json.readNamed step init members >>= finish := rfl

lemma entries_object (expected keyExpected : String) (members : List (String × Json)) :
    jsonValue.entries expected keyExpected init step finish (.object members)
      = Json.readNamed step init members >>= finish := rfl

lemma readField_none {name : String} {x : Except Cause α} {v : α} (h : x = .ok v) :
    jsonValue.readField name none x = .ok (some v) := by
  rw [h]
  rfl

end

lemma word16_toNat (n : UInt16) : jsonValue.word16 (.nat n.toNat) = .ok n := by
  have hword : jsonValue.word16 = Json.readWord16 := rfl
  rw [hword, Json.readWord16_nat]

lemma optional_body (body : Option Json) :
    jsonValue.optional jsonValue.json (body.getD .null) = .ok (Json.given body) := by
  have hoptional : jsonValue.optional jsonValue.json = Json.readOptional .ok := rfl
  rw [hoptional, Json.readOptional_body]

lemma ok_bind {α β : Type} (a : α) (f : α → Except Cause β) : (Except.ok a >>= f) = f a := rfl

lemma response_toJson (r : Response) : jsonValue.response r.toJson = .ok r.given := by
  rw [response, Response.toJson, record_object]
  simp only [Json.readNamed, String.reduceBEq, Bool.false_eq_true, if_true, if_false, ok_bind,
    pure_bind, readField_none (word16_toNat r.status), readField_none (texts_textsJson r.headers),
    readField_none (optional_body r.body)]
  rfl

lemma optionalText_string (s : String) : jsonValue.optionalText (.string s) = .ok (some s) := rfl

lemma stepField_parameter {f : StepFields} {name : String} {v : Json} (hbinding : name ≠ "binding")
    (has : name ≠ "as") : jsonValue.stepField f name v
      = .ok { f with parameters := (name, Buffered.ofJson v) :: f.parameters } := by
  rw [stepField, if_neg (by simpa using hbinding), if_neg (by simpa using has)]
  rfl

/-! ### Steps and operations

The parameters of a step are written beside its own fields.  Those that are read back are in the
reverse order, which does not matter to the action that they spell. -/

/-- The parameters of a step are buffered, newest first. -/
lemma readNamed_parameters : ∀ {members : List (String × Json)} {f : StepFields},
    (∀ e ∈ members, e.1 ≠ "binding" ∧ e.1 ≠ "as") → Json.readNamed jsonValue.stepField f members
      = .ok { f with parameters := (Parameters.ofMembers members).reverse ++ f.parameters }
  | [], _, _ => rfl
  | (name, v) :: rest, f, h => by
      obtain ⟨⟨hbinding, has⟩, hrest⟩ := List.forall_mem_cons.mp h
      rw [Json.readNamed, stepField_parameter hbinding has, ok_bind, readNamed_parameters hrest]
      simp [Parameters.ofMembers]

lemma step_toJson {s : StepEntry} (h : s.action.IsRegular) :
    jsonValue.step s.toJson = .ok s.given := by
  obtain ⟨binding, result, action⟩ := s
  have hmembers : ∀ e ∈ action.members, e.1 ≠ "binding" ∧ e.1 ≠ "as" := by
    cases action <;> simp [Action.members]
  have haction := Parameters.toAction_members h
  have hbinding : ∀ f : StepFields, f.binding = none → ∀ s, jsonValue.stepField f "binding"
      (.string s) = .ok { f with binding := some (some s) } := by
    rintro ⟨_, _, _⟩ rfl s
    rfl
  have hresult : ∀ f : StepFields, f.result = none → ∀ s, jsonValue.stepField f "as"
      (.string s) = .ok { f with result := some (some s) } := by
    rintro ⟨_, _, _⟩ rfl s
    rfl
  rw [step, StepEntry.toJson, entries_object]
  cases binding <;> cases result <;>
  · simp only [Json.optionalMember, List.nil_append, List.cons_append, Json.readNamed, hbinding,
      hresult, ok_bind, readNamed_parameters hmembers, List.append_nil, List.reverse_reverse]
    rw [haction]
    rfl

lemma optional_eq_ok {α : Type} {read : Json → Except Cause α} {v : Json} {a : α}
    (hv : v ≠ .null) (h : read v = .ok a) : jsonValue.optional read v = .ok (some a) := by
  have hoptional : jsonValue.optional read = Json.readOptional read := rfl
  rw [hoptional, Json.readOptional_of_ne_null read hv, h]
  rfl

lemma operation_toJson {o : Operation} (h : o.IsRegular) :
    jsonValue.operation o.toJson = .ok o.given := by
  obtain ⟨id, summary, steps, r⟩ := o
  have hsteps : ∀ s ∈ steps, jsonValue.readField "x-operations" none
      (jsonValue.optional (jsonValue.items jsonValue.step) (.array (s.map StepEntry.toJson)))
        = .ok (some (some (s.map StepEntry.given))) := fun s hs =>
    readField_none (optional_eq_ok (by simp) (mapM_map_eq_ok fun e he => step_toJson (h s hs e he)))
  have hresponse : ∀ r : Response, jsonValue.readField "x-response" none
      (jsonValue.optional jsonValue.response r.toJson) = .ok (some (some r.given)) := fun r =>
    readField_none (optional_eq_ok (by simp [Response.toJson]) (response_toJson r))
  rw [operation, Operation.toJson, record_object]
  cases id <;> cases summary <;> cases steps <;> cases r <;>
  · simp only [Json.optionalMember, List.nil_append, List.cons_append, List.append_nil,
      Json.readNamed, String.reduceBEq, Bool.false_eq_true, if_true, if_false, ok_bind, pure_bind,
      readField_none (optionalText_string _), Option.mem_def, hsteps, hresponse]
    rfl

/-! ### Paths and methods

A listing keeps the order of its keys, so its entries are added again in the order they stand in,
each behind those before it. -/

section
variable {κ α β : Type}

/-- A listing whose entries are written under names is read again, if each of them is added as it
was. -/
lemma readNamed_entries (field : Listing κ β → String → Json → Except Cause (Listing κ β))
    (name : κ → String) (encode : α → Json) (value : α → β) : ∀ {entries : List (κ × α)}
      {l : Listing κ β}, (∀ (l : Listing κ β), ∀ e ∈ entries, e.1 ∉ l.entries.map (·.1) → ∃ l',
        field l (name e.1) (encode e.2) = .ok l' ∧ l'.entries = l.entries ++ [(e.1, value e.2)]) →
      (l.entries.map (·.1) ++ entries.map (·.1)).Nodup → ∃ l',
        Json.readNamed field l (entries.map fun e => (name e.1, encode e.2)) = .ok l' ∧
          l'.entries = l.entries ++ entries.map fun e => (e.1, value e.2)
  | [], l, _, _ => ⟨l, rfl, by simp⟩
  | e :: rest, l, hfield, hnodup => by
      have hnew : e.1 ∉ l.entries.map (·.1) := by
        rw [List.nodup_append] at hnodup
        exact fun hmem => hnodup.2.2 _ hmem _ (by simp) rfl
      obtain ⟨l', hl', hentries⟩ := hfield l e List.mem_cons_self hnew
      have hnodup' : (l'.entries.map (·.1) ++ rest.map (·.1)).Nodup := by
        rw [hentries]
        simpa using hnodup
      obtain ⟨l'', hl'', hentries'⟩ := readNamed_entries field name encode value
        (fun l f hf => hfield l f (List.mem_cons_of_mem _ hf)) hnodup'
      refine ⟨l'', ?_, ?_⟩
      · rw [List.map_cons, Json.readNamed, hl', ok_bind, hl'']
      · rw [hentries', hentries]
        simp

/-- The whole listing, read from the start. -/
lemma readNamed_listing (field : Listing κ β → String → Json → Except Cause (Listing κ β))
    (name : κ → String) (encode : α → Json) (value : α → β) (l : Listing κ α)
    (hfield : ∀ (s : Listing κ β), ∀ e ∈ l.entries, e.1 ∉ s.entries.map (·.1) → ∃ s',
      field s (name e.1) (encode e.2) = .ok s' ∧ s'.entries = s.entries ++ [(e.1, value e.2)]) :
    Json.readNamed field .empty (l.entries.map fun e => (name e.1, encode e.2))
      = .ok (l.map value) := by
  obtain ⟨s, hread, hentries⟩ :=
    readNamed_entries field name encode value (l := .empty) hfield l.distinct
  rw [hread]
  exact congrArg Except.ok (Listing.eq_of_entries hentries)

end

lemma ofName?_name (method : Method) : Method.ofName? method.name = some method := by
  cases method <;> decide

lemma addOperation_toJson {item : PathItem} {method : Method} {operation : Operation}
    (hnew : method ∉ item.entries.map (·.1)) (h : operation.IsRegular) : ∃ item',
      jsonValue.addOperation item method.name operation.toJson = .ok item' ∧
        item'.entries = item.entries ++ [(method, operation.given)] := by
  have hcontains : item.contains method = false :=
    List.any_eq_false.mpr fun e he => by
      simpa using fun heq => hnew (List.mem_map.mpr ⟨e, he, heq⟩)
  have hadd : item.add method operation.given = .ok (item.set method operation.given) := by
    rw [PathItem.add, hcontains]
    rfl
  have hread : jsonValue.optional jsonValue.operation operation.toJson
      = .ok (some operation.given) :=
    optional_eq_ok (by simp [Operation.toJson]) (operation_toJson h)
  refine ⟨item.set method operation.given, ?_, setEntry_of_notMem hnew⟩
  rw [addOperation, ofName?_name]
  simp only [hread, ok_bind, Option.getD_some, hadd]
  rfl

lemma pathItem_toJson {item : PathItem} (h : item.IsRegular) :
    jsonValue.pathItem item.toJson = .ok (item.map Operation.given) :=
  readNamed_listing jsonValue.addOperation Method.name Operation.toJson Operation.given item
    fun _ e he hnew => addOperation_toJson hnew (h e he)

lemma paths_toJson {paths : Listing String PathItem}
    (h : ∀ e ∈ paths.entries, PathItem.IsRegular e.2) :
    jsonValue.paths (.object (paths.entries.map fun e => (e.1, PathItem.toJson e.2)))
      = .ok (paths.map (Listing.map Operation.given)) := by
  have hread := readNamed_listing jsonValue.setPath id PathItem.toJson
    (Listing.map Operation.given) paths fun s e he hnew =>
      ⟨_, by rw [setPath, pathItem_toJson (h e he)]; rfl, setEntry_of_notMem hnew⟩
  exact congrArg (· >>= Pure.pure) hread

lemma lenientText_string (s : String) : jsonValue.lenientText (.string s) = .ok (some s) := rfl

lemma api_toJson {api : Api} (h : api.IsRegular) : jsonValue.api api.toJson = .ok api.given := by
  obtain ⟨openapi, info, paths, defaults⟩ := api
  rw [Format.api, Api.toJson, record_object]
  cases openapi <;>
  · simp only [Json.optionalMember, List.nil_append, List.cons_append, Json.readNamed,
      String.reduceBEq, Bool.false_eq_true, if_true, if_false, ok_bind, pure_bind,
      readField_none (lenientText_string _), readField_none (info_toJson info),
      readField_none (paths_toJson h), readField_none (defaults_toJson defaults)]
    rfl

end Format

/-! ## Null bodies

A body is in a step or in a response, and those of a description are found by going through its
operations. -/

/-- The body of a request, if an action makes one and gives it. -/
def Action.body? : Action → Option Json
  | .fetch _ _ _ body => body
  | _ => none

/-- The bodies of the requests of an operation and of its response. -/
def Operation.bodies (o : Operation) : List Json :=
  ((o.steps.getD []).filterMap fun s => s.action.body?) ++ (o.response.bind (·.body)).toList

/-- Whether a description holds a body that is null. -/
def Api.HasNullBody (api : Api) : Prop := ∃ o ∈ api.operations, .null ∈ o.2.2.bodies

lemma Json.given_eq_self_iff {body : Option Json} : given body = body ↔ body ≠ some .null := by
  rcases body with _ | v
  · simp [given]
  · by_cases hnull : v = .null
    · subst hnull
      simp [given]
    · simp [given_some hnull, hnull]

lemma Action.given_eq_self_iff {action : Action} :
    action.given = action ↔ action.body? ≠ some .null := by
  cases action with
  | fetch url method headers body =>
      simp only [given, body?, fetch.injEq, true_and]
      exact Json.given_eq_self_iff
  | _ => simp [given, body?]

lemma StepEntry.given_eq_self_iff {s : StepEntry} :
    s.given = s ↔ s.action.body? ≠ some .null := by
  rw [← Action.given_eq_self_iff]
  exact ⟨fun h => congrArg StepEntry.action h, fun h => by rw [given, h]⟩

lemma Response.given_eq_self_iff {r : Response} : r.given = r ↔ r.body ≠ some .null := by
  rw [← Json.given_eq_self_iff]
  exact ⟨fun h => congrArg Response.body h, fun h => by rw [given, h]⟩

lemma map_eq_self_iff {α : Type} {f : α → α} {s : List α} : s.map f = s ↔ ∀ a ∈ s, f a = a := by
  simpa using List.map_inj_left (f := f) (g := id) (l := s)

lemma Operation.given_eq_self_iff {o : Operation} : o.given = o ↔ .null ∉ o.bodies := by
  have hparts : o.given = o ↔ o.steps.map (·.map StepEntry.given) = o.steps ∧
      o.response.map Response.given = o.response := by
    obtain ⟨id, summary, steps, response⟩ := o
    simp [given]
  have hsteps : o.steps.map (·.map StepEntry.given) = o.steps ↔
      .null ∉ (o.steps.getD []).filterMap fun s => s.action.body? := by
    cases o.steps with
    | none => simp
    | some steps => simp [map_eq_self_iff, StepEntry.given_eq_self_iff]
  have hresponse : o.response.map Response.given = o.response ↔
      .null ∉ (o.response.bind (·.body)).toList := by
    cases o.response with
    | none => simp
    | some r => simp [Response.given_eq_self_iff]
  rw [hparts, hsteps, hresponse, bodies, List.mem_append, not_or]

lemma Listing.map_eq_self_iff {κ α : Type} {f : α → α} {l : Listing κ α} :
    l.map f = l ↔ ∀ e ∈ l.entries, f e.2 = e.2 := by
  have hentries : l.map f = l ↔ l.entries.map (fun e => (e.1, f e.2)) = l.entries :=
    ⟨fun h => congrArg Listing.entries h, fun h => Listing.eq_of_entries h⟩
  rw [hentries, WorkerGen.map_eq_self_iff]
  simp [Prod.ext_iff]

/-- What is given of a description is all of it exactly if it holds no body that is null. -/
lemma Api.given_eq_self_iff {api : Api} : api.given = api ↔ ¬api.HasNullBody := by
  have hpaths : api.given = api ↔ api.paths.map (Listing.map Operation.given) = api.paths :=
    ⟨fun h => congrArg Api.paths h, fun h => by rw [given, h]⟩
  simp only [hpaths, Listing.map_eq_self_iff, Operation.given_eq_self_iff]
  constructor
  · rintro hall ⟨o, ho, hnull⟩
    obtain ⟨e, he, ho⟩ := List.mem_flatMap.mp ho
    obtain ⟨f, hf, rfl⟩ := List.mem_map.mp ho
    exact hall e he f hf hnull
  · intro hnone e he f hf hnull
    exact hnone ⟨_, List.mem_flatMap.mpr ⟨e, he, List.mem_map.mpr ⟨f, hf, rfl⟩⟩, hnull⟩

/-! ## Descriptions from documents

A document is needed only for the condition that its values name no member twice. -/

/-- **A description is decoded from its JSON form as the document gave it**, but for bodies that are
null, which count as absent; so it is the same description exactly if it holds none. -/
theorem ofJson_toJson_of_parse {text : String} {api : Api} (h : Api.parse text = .ok api) :
    Api.ofJson api.toJson = .ok api.given ∧
      (Api.ofJson api.toJson = .ok api ↔ ¬api.HasNullBody) := by
  have hdecoded : Api.ofJson api.toJson = .ok api.given :=
    Format.api_toJson (Api.isRegular_of_parse h)
  refine ⟨hdecoded, ?_⟩
  rw [hdecoded, Except.ok.injEq, Api.given_eq_self_iff]

/-- A document with steps, a response, and a path without operations. -/
def storing : String :=
  "openapi: 3.1\npaths:\n  /none:\n  /a:\n    Put:\n      x-operations:\n" ++
  "        - \x7bas: x, action: kv.put, key: k, value: \x7bb: [1.5, ~], a: -1\x7d, ttl: 60\x7d\n" ++
  "      x-response: \x7bheaders: \x7bb: '1', a: '2'\x7d\x7d\n    get: ~\n"

theorem ofJson_toJson_of_parse_storing : ∃ api, Api.parse storing = .ok api ∧
    api.operations.map (fun o => (o.1, o.2.1, o.2.2.steps.isSome)) =
      [("/a", .put, true), ("/a", .get, false)] ∧ Api.ofJson api.toJson = .ok api := by
  have hparse : (Api.parse storing).toOption.map (fun api =>
      (api.operations.map (fun o => (o.1, o.2.1, o.2.2.steps.isSome)),
        api.operations.all fun o => !o.2.2.bodies.contains .null)) =
      some ([("/a", .put, true), ("/a", .get, false)], true) := by decide +kernel
  obtain ⟨api, hapi, hread⟩ := exists_of_map_toOption hparse
  obtain ⟨hoperations, hbodies⟩ := Prod.mk.inj hread
  refine ⟨api, hapi, hoperations, (ofJson_toJson_of_parse hapi).2.mpr ?_⟩
  rintro ⟨o, ho, hnull⟩
  have hnot := List.all_eq_true.mp hbodies o ho
  exact absurd hnull (by simpa using hnot)

/-- A document with a response whose body is a number that JSON has not. -/
def nanBody : String := "paths:\n  /a:\n    get: \x7bx-response: \x7bbody: .nan\x7d\x7d\n"

/-- The same document without the body. -/
def noBody : String := "paths:\n  /a:\n    get: \x7bx-response: \x7b\x7d\x7d\n"

/-- **A body that is null is lost**: two documents give different descriptions of one JSON form, and
the description with the body is not decoded from it. -/
theorem not_decoded_nanBody : ∃ api other, Api.parse nanBody = .ok api ∧
    Api.parse noBody = .ok other ∧ api ≠ other ∧ api.toJson = other.toJson ∧
      Api.ofJson api.toJson = .ok other ∧ Api.ofJson api.toJson ≠ .ok api := by
  have hboth : (Api.parse nanBody).toOption.map (fun api => (Api.parse noBody).toOption.map
      fun other => decide (api ≠ other ∧ api.toJson = other.toJson ∧
        Api.ofJson api.toJson = .ok other)) = some (some true) := by decide +kernel
  obtain ⟨api, hapi, hrest⟩ := exists_of_map_toOption hboth
  obtain ⟨other, hother, hfacts⟩ := exists_of_map_toOption hrest
  obtain ⟨hne, hjson, hdecoded⟩ := of_decide_eq_true hfacts
  refine ⟨api, other, hapi, hother, hne, hjson, hdecoded, fun hsame => hne ?_⟩
  exact Except.ok.inj (hsame.symm.trans hdecoded)

end WorkerGen
