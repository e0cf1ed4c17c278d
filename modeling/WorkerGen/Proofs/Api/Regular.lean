import Mathlib
import WorkerGen.Proofs.Api.Parameters
import WorkerGen.Proofs.Data.Buffered
import WorkerGen.Proofs.Data.Reading

/-!
# The values in a description

The values that the steps of a description hold come from buffered values.  So no object in them
names a member twice, whatever the document is (`isRegular_of_parse`).  A description that is
written as JSON and read again relies on it.

`Yields` is what is shown of readers here: all values that a reading gives satisfy a condition.  It
follows the combinators as the other judgements about readers do, and it is the weakest of them,
since a condition on a value is all that has to be carried from the parameters of an action to the
description.
-/

namespace WorkerGen

/-! ## What a reading gives

The judgement is closed under everything that readers are made of.  What an error says does not
matter, and neither do the anchors of the document. -/

namespace Reader

variable {α β : Type} {P : α → Prop} {Q : β → Prop} {x : Reader α}

/-- Whether all values that a reading gives satisfy a condition. -/
def Yields (P : α → Prop) (x : Reader α) : Prop := ∀ ⦃a n v m⦄, x a n = .ok (v, m) → P v

namespace Yields

lemma pure {v : α} (h : P v) : Yields P (Pure.pure v) := fun _ _ _ _ hv =>
  (pure_eq_ok.mp hv).1 ▸ h

lemma any : Yields (fun _ => True) x := fun _ _ _ _ _ => trivial

lemma bind {f : α → Reader β} (h : Yields P x) (hf : ∀ v, P v → Yields Q (f v)) :
    Yields Q (x >>= f) := by
  intro a n w m hw
  obtain ⟨v, k, hx, hw⟩ := bind_eq_ok.mp hw
  exact hf v (h hx) hw

lemma throw {e : DataError} : Yields P (MonadExcept.throw e) := fun _ _ _ _ hv =>
  absurd hv throw_ne_ok

lemma failWith {cause : Cause} : Yields P (WorkerGen.failWith cause) := throw

lemma placing {c : Cursor} (h : Yields P x) : Yields P (c.placing x) := fun _ _ _ _ hv =>
  h (placing_eq_ok.mp hv)

lemma orFail {r : Except Cause α} (h : ∀ v, r = .ok v → P v) : Yields P (Cursor.orFail r) := by
  cases r with
  | error cause => exact failWith
  | ok v => exact pure (h v rfl)

end Yields

end Reader

open Reader

namespace Cursor

variable {α σ : Type} {P : α → Prop} {Q : σ → Prop} {read : Cursor → Reader α}

lemma yields_optional (hread : ∀ c, Yields P (read c)) (c : Cursor) :
    Yields (fun o => ∀ v ∈ o, P v) (optional read c) := by
  have hnone : ∀ v ∈ (none : Option α), P v := by simp
  have hsome : ∀ d, Yields (fun o => ∀ v ∈ o, P v) (some <$> read d) := fun d =>
    (hread d).bind fun v hv => .pure (by simpa using hv)
  refine Yields.any.bind fun d _ => ?_
  split
  · split
    · split_ifs
      · exact .pure hnone
      · exact .failWith
    · exact hsome d
    · split_ifs
      · exact .pure hnone
      · exact hsome d
  · exact hsome d

lemma yields_readItems (hread : ∀ c, Yields P (read c)) {path : DataPath} {depth : ℕ} :
    ∀ {index : ℕ} {nodes : List Yaml.Node},
      Yields (fun vs => ∀ v ∈ vs, P v) (readItems path depth read index nodes)
  | _, [] => .pure (by simp)
  | _, _ :: _ => (hread _).bind fun _ hv => (yields_readItems hread).bind fun _ hvs =>
      .pure (List.forall_mem_cons.mpr ⟨hv, hvs⟩)

lemma yields_items (hread : ∀ c, Yields P (read c)) (c : Cursor) :
    Yields (fun vs => ∀ v ∈ vs, P v) (items read c) := by
  refine Yields.any.bind fun d _ => .placing ?_
  split
  · exact Yields.any.bind fun _ _ => yields_readItems hread
  · exact .pure (by simp)
  · exact .failWith

lemma yields_readEntries {keyExpected : String} {step : σ → String → Cursor → Reader σ}
    (hstep : ∀ s name c, Q s → Yields Q (step s name c)) {path : DataPath} {depth : ℕ} :
    ∀ {nodes : List (Yaml.Node × Yaml.Node)} {s : σ}, Q s →
      Yields Q (readEntries path depth keyExpected step s nodes)
  | [], _, hs => .pure hs
  | _ :: _, _, hs => Yields.any.bind fun _ _ => (hstep _ _ _ hs).bind fun _ ht =>
      yields_readEntries hstep ht

/-- What every entry keeps and the end makes of it holds of what is read. -/
lemma yields_entries {expected keyExpected : String} {init : σ}
    {step : σ → String → Cursor → Reader σ} {finish : σ → Reader α} (hinit : Q init)
    (hstep : ∀ s name c, Q s → Yields Q (step s name c)) (hfinish : ∀ s, Q s → Yields P (finish s))
    (c : Cursor) : Yields P (entries expected keyExpected init step finish c) := by
  refine Yields.any.bind fun d _ => .placing ?_
  split
  · exact Yields.any.bind fun _ _ => (yields_readEntries hstep hinit).bind hfinish
  · exact hfinish init hinit
  · exact .failWith

lemma yields_entriesOrNull {expected : String} {init : σ}
    {step : σ → String → Cursor → Reader σ} (hinit : Q init)
    (hstep : ∀ s name c, Q s → Yields Q (step s name c)) (c : Cursor) :
    Yields Q (entriesOrNull expected init step c) := by
  refine Yields.any.bind fun d _ => .placing ?_
  split_ifs
  · exact .failWith
  split
  · split
    · exact .pure hinit
    · exact .failWith
    · exact .failWith
  · exact Yields.any.bind fun _ _ => yields_readEntries hstep hinit
  · exact .failWith

end Cursor

/-! ## Actions

An action is made of parameters that have been read from buffered values.  Each kind of action has
its reader, and all that is asked of it is that it puts no other value in than one of these. -/

/-- The values of any kind that an action holds. -/
def Action.values : Action → List Json
  | .sql _ _ arguments => arguments
  | .kvPut _ value _ | .r2Put _ value _ => [value]
  | .fetch _ _ _ body => body.toList
  | .kvGet .. | .kvDelete _ | .r2Get _ | .r2Delete _ => []

/-- Whether the values of an action are regular. -/
def Action.IsRegular (action : Action) : Prop := ∀ v ∈ action.values, v.IsRegular

namespace Parameters

/-- What every parameter keeps holds after all of them. -/
lemma foldlM_keeps {σ : Type} {P : σ → Prop} {f : σ → String × Buffered → Except Cause σ}
    (hstep : ∀ s p t, P s → f s p = .ok t → P t) : ∀ {ps : Parameters} {s t : σ}, P s →
      ps.foldlM f s = .ok t → P t
  | [], _, _, hs, h => by
      rw [List.foldlM_nil] at h
      exact Except.ok.inj h ▸ hs
  | p :: ps, s, t, hs, h => by
      rw [List.foldlM_cons] at h
      obtain ⟨r, hr, h⟩ := except_bind_eq_ok.mp h
      exact foldlM_keeps hstep (hstep s p r hs hr) h

/-- A parameter that is read has the value that it is read as. -/
lemma field_eq_ok {α : Type} {name : String} {read : Buffered → Except Cause α} {seen r : Option α}
    {b : Buffered} (h : field name read seen b = .ok r) : ∃ v, read b = .ok v ∧ r = some v := by
  cases seen with
  | some v => exact absurd h (by simp [field])
  | none =>
      obtain ⟨v, hv, rfl⟩ := except_map_eq_ok.mp h
      exact ⟨v, hv, rfl⟩

lemma isRegular_toJsonList {b : Buffered} {vs : List Json} (h : b.toJsonList = .ok vs) :
    ∀ v ∈ vs, v.IsRegular := by
  cases b with
  | sequence items => exact Json.areRegular_iff.mp (Buffered.areRegular_toJsonItems h)
  | _ => exact absurd h (by simp [Buffered.toJsonList])

lemma toOptional_eq_ok {α : Type} {read : Buffered → Except Cause α} {b : Buffered} {o : Option α}
    (h : b.toOptional read = .ok o) : ∀ v ∈ o, read b = .ok v := by
  have hread : (read b).map some = .ok o → ∀ v ∈ o, read b = .ok v := by
    intro h v hv
    obtain ⟨w, hw, rfl⟩ := except_map_eq_ok.mp h
    rw [hw, Option.some_inj.mp hv]
  cases b with
  | null => rw [← Except.ok.inj h]; simp
  | _ => exact hread h

lemma isRegular_sql {verb : SqlVerb} {ps : Parameters} {action : Action}
    (h : sql verb ps = .ok action) : action.IsRegular := by
  obtain ⟨⟨statement, arguments⟩, hfold, h⟩ := except_bind_eq_ok.mp h
  obtain ⟨s, -, h⟩ := except_bind_eq_ok.mp h
  rw [← Except.ok.inj h]
  have hkeeps := foldlM_keeps (P := fun s : Option String × Option (List Json) =>
    ∀ vs ∈ s.2, ∀ v ∈ vs, v.IsRegular) ?_ (by simp) hfold
  · cases arguments with
    | none => simp [Action.IsRegular, Action.values]
    | some vs => exact hkeeps vs rfl
  · rintro ⟨statement, arguments⟩ ⟨name, b⟩ ⟨statement', arguments'⟩ hs hstep
    dsimp only at hstep
    split_ifs at hstep
    · obtain ⟨r, -, hstep⟩ := except_bind_eq_ok.mp hstep
      obtain ⟨rfl, rfl⟩ := Prod.mk.inj (Except.ok.inj hstep)
      exact hs
    · obtain ⟨r, hr, hstep⟩ := except_bind_eq_ok.mp hstep
      obtain ⟨rfl, rfl⟩ := Prod.mk.inj (Except.ok.inj hstep)
      obtain ⟨vs, hvs, rfl⟩ := field_eq_ok hr
      simpa using isRegular_toJsonList hvs
    · obtain ⟨rfl, rfl⟩ := Prod.mk.inj (Except.ok.inj hstep)
      exact hs

lemma isRegular_stored {α : Type} {third : String} {read : Buffered → Except Cause α}
    {ps : Parameters} {key : String} {value : Json} {extra : Option α}
    (h : stored third read ps = .ok (key, value, extra)) : value.IsRegular := by
  obtain ⟨⟨key', value', extra'⟩, hfold, h⟩ := except_bind_eq_ok.mp h
  obtain ⟨k, -, h⟩ := except_bind_eq_ok.mp h
  obtain ⟨v, hv, h⟩ := except_bind_eq_ok.mp h
  obtain ⟨-, hrest⟩ := Prod.mk.inj (Except.ok.inj h)
  obtain ⟨rfl, -⟩ := Prod.mk.inj hrest
  refine foldlM_keeps (P := fun s : Option String × Option Json × Option (Option α) =>
    ∀ v ∈ s.2.1, v.IsRegular) ?_ (by simp) hfold _ (require_eq_ok_iff.mp hv)
  rintro ⟨key, value, extra⟩ ⟨name, b⟩ t hs hstep
  dsimp only at hstep
  split_ifs at hstep
  · obtain ⟨r, -, hstep⟩ := except_bind_eq_ok.mp hstep
    rw [← Except.ok.inj hstep]
    exact hs
  · obtain ⟨r, hr, hstep⟩ := except_bind_eq_ok.mp hstep
    obtain ⟨v, hv, rfl⟩ := field_eq_ok hr
    rw [← Except.ok.inj hstep]
    simpa using Buffered.isRegular_toJson hv
  · obtain ⟨r, -, hstep⟩ := except_bind_eq_ok.mp hstep
    rw [← Except.ok.inj hstep]
    exact hs
  · rw [← Except.ok.inj hstep]
    exact hs

lemma isRegular_fetch {ps : Parameters} {action : Action} (h : fetch ps = .ok action) :
    action.IsRegular := by
  obtain ⟨fields, hfold, h⟩ := except_bind_eq_ok.mp h
  obtain ⟨url, -, h⟩ := except_bind_eq_ok.mp h
  rw [← Except.ok.inj h]
  have hkeeps := foldlM_keeps (P := fun f : FetchFields => ∀ o ∈ f.body, ∀ v ∈ o, v.IsRegular)
    ?_ (by simp) hfold
  · intro v hv
    cases hbody : fields.body with
    | none => simp [Action.values, hbody] at hv
    | some o => exact hkeeps o hbody v (by simpa [Action.values, hbody] using hv)
  · rintro f ⟨name, b⟩ t hs hstep
    dsimp only at hstep
    split_ifs at hstep
    · obtain ⟨r, -, hstep⟩ := except_bind_eq_ok.mp hstep
      exact Except.ok.inj hstep ▸ hs
    · obtain ⟨r, -, hstep⟩ := except_bind_eq_ok.mp hstep
      exact Except.ok.inj hstep ▸ hs
    · obtain ⟨r, -, hstep⟩ := except_bind_eq_ok.mp hstep
      exact Except.ok.inj hstep ▸ hs
    · obtain ⟨r, hr, hstep⟩ := except_bind_eq_ok.mp hstep
      obtain ⟨o, ho, rfl⟩ := field_eq_ok hr
      rw [← Except.ok.inj hstep]
      simpa using fun v hv => Buffered.isRegular_toJson (toOptional_eq_ok ho v hv)
    · exact Except.ok.inj hstep ▸ hs

/-- **The values of an action that parameters describe are regular.** -/
theorem isRegular_toAction {ps : Parameters} {action : Action} (h : ps.toAction = .ok action) :
    action.IsRegular := by
  have hnone : ∀ {a : Action}, a.values = [] → a.IsRegular := by
    intro a ha v hv
    rw [ha] at hv
    exact absurd hv (by simp)
  have hone : ∀ {a : Action} {v : Json}, a.values = [v] → v.IsRegular → a.IsRegular := by
    intro a v ha hv w hw
    rw [ha, List.mem_singleton] at hw
    exact hw ▸ hv
  obtain ⟨⟨index, others⟩, -, h⟩ := except_bind_eq_ok.mp h
  dsimp only at h
  unfold Parameters.action at h
  split at h
  · exact isRegular_sql h
  · exact isRegular_sql h
  · exact isRegular_sql h
  · obtain ⟨_, -, h⟩ := except_bind_eq_ok.mp h
    obtain ⟨_, -, h⟩ := except_bind_eq_ok.mp h
    exact Except.ok.inj h ▸ hnone rfl
  · obtain ⟨⟨key, value, lifetime⟩, hstored, h⟩ := except_bind_eq_ok.mp h
    exact Except.ok.inj h ▸ hone rfl (isRegular_stored hstored)
  · obtain ⟨_, -, h⟩ := except_bind_eq_ok.mp h
    exact Except.ok.inj h ▸ hnone rfl
  · obtain ⟨_, -, h⟩ := except_bind_eq_ok.mp h
    exact Except.ok.inj h ▸ hnone rfl
  · obtain ⟨⟨key, value, contentType⟩, hstored, h⟩ := except_bind_eq_ok.mp h
    exact Except.ok.inj h ▸ hone rfl (isRegular_stored hstored)
  · obtain ⟨_, -, h⟩ := except_bind_eq_ok.mp h
    exact Except.ok.inj h ▸ hnone rfl
  · exact isRegular_fetch h

end Parameters

/-! ## Descriptions

The condition on an operation is that on its steps, and so on upwards.  A path whose methods have
been added one by one has the operations that were added. -/

/-- Whether the values of all steps are regular. -/
def Operation.IsRegular (o : Operation) : Prop :=
  ∀ steps ∈ o.steps, ∀ s ∈ steps, s.action.IsRegular

/-- Whether all operations of a path are regular. -/
def PathItem.IsRegular (item : PathItem) : Prop := ∀ e ∈ item.entries, e.2.IsRegular

/-- Whether the values of all steps of a description are regular. -/
def Api.IsRegular (api : Api) : Prop := ∀ e ∈ api.paths.entries, PathItem.IsRegular e.2

namespace Cursor

variable {α : Type} {P : α → Prop} {x : Reader α}

lemma yields_readField {name : String} {seen : Option α} (h : Yields P x) :
    Yields (fun o => ∀ v ∈ o, P v) (Format.document.readField name seen x) := by
  have hread : Yields (fun o => ∀ v ∈ o, P v) (do return some (← x)) :=
    h.bind fun v hv => .pure (by simpa using hv)
  rw [Format.readField]
  split_ifs
  · exact .throw
  · exact hread

lemma yields_step (c : Cursor) : Yields (fun s => s.action.IsRegular) c.step := by
  refine yields_entries (Q := fun _ => True) trivial (fun _ _ _ _ => .any) (fun f _ => ?_) c
  exact (Yields.orFail fun _ => Parameters.isRegular_toAction).bind fun _ h => .pure h

lemma yields_operation (c : Cursor) : Yields Operation.IsRegular c.operation := by
  refine yields_entries
    (Q := fun f : OperationFields => ∀ o ∈ f.steps, ∀ steps ∈ o, ∀ s ∈ steps, s.action.IsRegular)
    (by simp) (fun f name c hf => ?_) (fun f hf => .pure ?_) c
  · split_ifs
    · exact Yields.any.bind fun _ _ => .pure hf
    · exact Yields.any.bind fun _ _ => .pure hf
    · exact (yields_readField (yields_optional (yields_items yields_step) c)).bind
        fun _ h => .pure h
    · exact Yields.any.bind fun _ _ => .pure hf
    · exact .pure hf
  · intro steps hsteps
    dsimp only at hsteps
    cases hread : f.steps with
    | none => rw [hread] at hsteps; exact absurd hsteps (by simp)
    | some o =>
        rw [hread] at hsteps
        exact hf o hread steps hsteps

lemma isRegular_add {item item' : PathItem} {method : Method} {operation : Operation}
    (hitem : item.IsRegular) (hnew : operation.IsRegular)
    (h : item.add method operation = .ok item') : item'.IsRegular := by
  rw [PathItem.add] at h
  split_ifs at h
  rw [← Except.ok.inj h]
  exact forall_mem_setEntry (p := fun e => Operation.IsRegular e.2) hnew hitem

lemma yields_pathItem (c : Cursor) : Yields PathItem.IsRegular c.pathItem := by
  have hempty : PathItem.IsRegular .empty := by simp [PathItem.IsRegular, Listing.empty]
  refine yields_entriesOrNull hempty (fun item name c hitem => ?_) c
  unfold Format.addOperation
  cases Method.ofName? name with
  | none => exact .pure hitem
  | some method =>
      refine (yields_optional yields_operation c).bind fun o ho => .orFail fun item' => ?_
      refine isRegular_add hitem ?_
      cases o with
      | none => simp [Operation.IsRegular, Operation.blank]
      | some operation => exact ho operation rfl

/-- What is read as a description is regular. -/
lemma yields_api (c : Cursor) : Yields Api.IsRegular c.api := by
  have hpaths : ∀ c, Yields (fun paths : Listing String PathItem =>
      ∀ e ∈ paths.entries, PathItem.IsRegular e.2) (paths c) := by
    refine yields_entries (by simp [Listing.empty]) (fun paths path c h => ?_) fun _ h => .pure h
    exact (yields_pathItem c).bind fun item hitem =>
      .pure (forall_mem_setEntry (p := fun e => PathItem.IsRegular e.2) hitem h)
  refine yields_entries (Q := fun f : ApiFields => ∀ paths ∈ f.paths,
      ∀ e ∈ paths.entries, PathItem.IsRegular e.2) (by simp) (fun f name c hf => ?_)
    (fun f hf => .pure ?_) c
  · split_ifs
    · exact Yields.any.bind fun _ _ => .pure hf
    · exact Yields.any.bind fun _ _ => .pure hf
    · exact (yields_readField (hpaths c)).bind fun _ h => .pure h
    · exact Yields.any.bind fun _ _ => .pure hf
    · exact .pure hf
  · cases hread : f.paths with
    | none => simp [Api.IsRegular, Listing.empty]
    | some paths => exact hf paths hread

end Cursor

/-- **The values in a description that a document gives are regular.** -/
theorem Api.isRegular_of_parse {text : String} {api : Api} (h : Api.parse text = .ok api) :
    api.IsRegular := by
  have hempty : Api.empty.IsRegular := by simp [Api.IsRegular, Api.empty, Listing.empty]
  rw [Api.parse] at h
  split_ifs at h
  · exact Except.ok.inj h ▸ hempty
  split at h
  · exact absurd h (by simp)
  · rename_i d _
    rw [Api.ofDocument] at h
    split at h
    · rename_i read hread
      obtain rfl := Except.ok.inj h
      rw [Yaml.Document.read] at hread
      split at hread
      · exact Except.ok.inj hread ▸ hempty
      · obtain ⟨m, hread⟩ := run'_eq_ok hread
        exact Cursor.yields_api _ hread
    · exact absurd h (by simp)

end WorkerGen
