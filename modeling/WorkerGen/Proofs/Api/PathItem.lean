import Mathlib
import WorkerGen.Proofs.Api.Declarations
import WorkerGen.Proofs.Data.Exact
import WorkerGen.Proofs.FirstFault

/-!
# What is read under a path

Under a path stand operations, each under the name of its method, and other keys.  A key is a scalar
or an alias of one.  Keys that name no method do not matter, whatever is written under them, but for
their own aliases, which are counted as all aliases are: reading the mapping is taking its
`itemSteps`, one after another (`readEntries_addOperation`).

* `mem_itemSteps` — there is a step for what is written under each method.
* `length_itemSteps` — the other steps are the aliases among the keys.
* `foldlM_addStep_eq_ok_iff` — when the steps succeed, and which operations they give.
* `foldlM_addStep_eq_error_iff` — which error they end with: that of the first `ItemFault`.

What an operation comes to depends on how many aliases have been followed before it, so both are
said of `operations`, which takes all steps in a row.  Where no key is an alias these steps are the
operations alone.  `pathItem_of_mapping` puts this together.  A tag of an application on the mapping
itself is not skipped but refused (`not_read_taggedItem`).
-/

namespace WorkerGen

open Reader
open Yaml (Node)

/-- The name of a method in any ASCII case. -/
lemma Method.ofName?_eq_some_iff {s : String} {m : Method} :
    Method.ofName? s = some m ↔ s.toList.map Text.lower = m.name.toList := by
  have hdistinct : ∀ m m' : Method, m.name.toList = m'.name.toList → m = m' := by
    intro m m'
    cases m <;> cases m' <;> simp [Method.name]
  have hall : ∀ m : Method, m ∈ Method.all := by
    intro m
    cases m <;> decide
  rw [Method.ofName?]
  constructor
  · intro h
    simpa using List.find?_some h
  · intro h
    cases hfind : Method.all.find? fun m => s.toList.map Text.lower == m.name.toList with
    | none => exact absurd h (by simpa using List.find?_eq_none.mp hfind m (hall m))
    | some m' =>
        have hm' : s.toList.map Text.lower = m'.name.toList := by simpa using List.find?_some hfind
        rw [hdistinct m m' (h.symm.trans hm')]

namespace Cursor

/-! ## Steps

The reader takes the entries one by one and knows the operations it has so far.  Its steps are read
off the entries before anything is read: one for each key that is an alias, and one for each key
that names a method, with the cursor at what is written under it.  A key that is neither gives none,
so that it has no part in what follows (`readEntries_addOperation`). -/

/-- What reading the entries under a path comes to, one step after another. -/
inductive ItemStep where
  /-- The alias of a key is followed. -/
  | key
  /-- What is written under a method is read. -/
  | operation (method : Method) (c : Cursor)

/-- Follows an alias, if there is room for it. -/
def followAlias : Reader Unit := do
  let anchors ← read
  let count ← get
  set (count + 1)
  if anchors.limit < count + 1 then throw .tooManyAliases

namespace ItemStep

/-- The method of a step that reads an operation. -/
def methods : ItemStep → List Method
  | key => []
  | operation method _ => [method]

/-- Takes a step, and gives the operation that is read in it.  Null is the blank operation. -/
def take : ItemStep → Reader (List (Method × Operation))
  | key => do
    followAlias
    return []
  | operation method c => do return [(method, (← c.optional Cursor.operation).getD .blank)]

end ItemStep

/-- The step for a key. -/
def keySteps : Node → List ItemStep
  | .alias .. => [.key]
  | _ => []

/-- The step for what is written under a key, which has to name a method. -/
def methodSteps (a : Anchors) (path : DataPath) (depth : ℕ) (e : Node × Node) : List ItemStep :=
  (((a.name? e.1).bind Method.ofName?).map fun method =>
    ItemStep.operation method ⟨e.2, valuePath path e.1, depth⟩).toList

/-- The steps of reading entries. -/
def itemSteps (a : Anchors) (path : DataPath) (depth : ℕ) (entries : List (Node × Node)) :
    List ItemStep :=
  entries.flatMap fun e => keySteps e.1 ++ methodSteps a path depth e

/-- The operations that steps give, if they are taken one after another. -/
def operations : List ItemStep → Reader (List (Method × Operation))
  | [] => return []
  | x :: rest => do
    let first ← x.take
    return first ++ (← operations rest)

/-- Takes a step and adds what it gives to the operations of a path. -/
def addStep (item : PathItem) (x : ItemStep) : Reader PathItem := do
  (← x.take).foldlM (fun item e => orFail (PathItem.add item e.1 e.2)) item

section
variable {a : Anchors} {path : DataPath} {depth : ℕ} {entries : List (Node × Node)}

/-- An operation is read under every key that names a method, and under no other one. -/
lemma mem_itemSteps {method : Method} {c : Cursor} :
    .operation method c ∈ itemSteps a path depth entries ↔
      ∃ key value text, (key, value) ∈ entries ∧ a.name? key = some text ∧
        text.toList.map Text.lower = method.name.toList ∧
          c = ⟨value, valuePath path key, depth⟩ := by
  have hkey : ∀ node : Node, .operation method c ∉ keySteps node := by
    intro node
    cases node <;> simp [keySteps]
  simp only [itemSteps, methodSteps, List.mem_flatMap, List.mem_append, hkey, false_or,
    Option.mem_toList, Option.map_eq_some_iff, Option.bind_eq_some_iff, Prod.exists]
  constructor
  · rintro ⟨key, value, hmem, _, ⟨text, htext, hname⟩, heq⟩
    obtain ⟨rfl, rfl⟩ := ItemStep.operation.inj heq
    exact ⟨key, value, text, hmem, htext, Method.ofName?_eq_some_iff.mp hname, rfl⟩
  · rintro ⟨key, value, text, hmem, htext, hname, rfl⟩
    exact ⟨key, value, hmem, method, ⟨text, htext, Method.ofName?_eq_some_iff.mpr hname⟩, rfl⟩

/-- Otherwise only the aliases among the keys are followed. -/
lemma length_itemSteps : (itemSteps a path depth entries).length =
    (entries.map fun e => e.1.ownAliases).sum +
      ((itemSteps a path depth entries).flatMap ItemStep.methods).length := by
  induction entries with
  | nil => rfl
  | cons e rest ih =>
      have hkey : (keySteps e.1).length = e.1.ownAliases ∧
          (keySteps e.1).flatMap ItemStep.methods = [] := by
        obtain ⟨key, value⟩ := e
        cases key <;> exact ⟨rfl, rfl⟩
      have hmethod : ((methodSteps a path depth e).flatMap ItemStep.methods).length
          = (methodSteps a path depth e).length := by
        rw [methodSteps]
        cases (a.name? e.1).bind Method.ofName? <;> rfl
      have hcons : itemSteps a path depth (e :: rest)
          = keySteps e.1 ++ methodSteps a path depth e ++ itemSteps a path depth rest :=
        List.flatMap_cons
      simp only [hcons, List.length_append, List.flatMap_append, List.map_cons, List.sum_cons, hkey,
        hmethod, ih, List.length_nil]
      omega

lemma followAlias_apply (n : ℕ) : followAlias a n
    = if a.limit < n + 1 then .error .tooManyAliases else .ok ((), n + 1) := by
  have hfollow : followAlias a n = (if a.limit < n + 1 then (throw .tooManyAliases : Reader PUnit)
      else pure ()) a (n + 1) := rfl
  rw [hfollow]
  split_ifs <;> rfl

/-- A key that stands for a scalar is read as its text.  Its own alias is all that is followed. -/
lemma text_apply {expected name : String} {key : Node} (h : a.name? key = some name) :
    text expected ⟨key, path, depth⟩ a = (operations (keySteps key) >>= fun _ => pure name) a := by
  cases key with
  | scalar start tag style s =>
      obtain rfl : s = name := Option.some.inj h
      rfl
  | «alias» start target =>
      obtain ⟨s, tag, style, hbehind⟩ := Anchors.name?_eq_some_iff.mp h
      have hresolve : resolve ⟨.alias start target, path, depth⟩ a = (followAlias >>= fun _ =>
          pure (⟨.scalar s tag style name, path, depth⟩ : Cursor)) a := by
        funext n
        rw [resolve_alias, hbehind, bind_apply, followAlias_apply]
        split_ifs <;> rfl
      have htext : text expected ⟨.alias start target, path, depth⟩ a
          = (followAlias >>= fun _ => pure name) a := by
        refine (bind_congr_at hresolve fun _ => rfl).trans ?_
        rw [bind_assoc]
        rfl
      rw [htext]
      simp [keySteps, operations, ItemStep.take]
  | _ => exact absurd h (by simp [Anchors.name?, Anchors.follow])

/-- **Keys that name no method do not matter**, nor does what is written under them, but for the
aliases that they are. -/
lemma readEntries_addOperation (hkeys : ∀ e ∈ entries, (a.name? e.1).isSome) (item : PathItem) :
    readEntries path depth "a string" addOperation item entries a
      = (itemSteps a path depth entries).foldlM addStep item a := by
  induction entries generalizing item with
  | nil => rfl
  | cons e rest ih =>
      obtain ⟨key, value⟩ := e
      obtain ⟨hkey, hrest⟩ := List.forall_mem_cons.mp hkeys
      obtain ⟨name, hname⟩ := Option.isSome_iff_exists.mp hkey
      have hread : readEntries path depth "a string" addOperation item ((key, value) :: rest) =
          text "a string" ⟨key, path, depth⟩ >>= fun name =>
            addOperation item name ⟨value, valuePath path key, depth⟩ >>= fun item' =>
              readEntries path depth "a string" addOperation item' rest :=
        rfl
      have hsteps : itemSteps a path depth ((key, value) :: rest)
          = keySteps key ++
            (methodSteps a path depth (key, value) ++ itemSteps a path depth rest) := by
        rw [itemSteps, List.flatMap_cons, List.append_assoc]
        rfl
      have hfirst : (keySteps key).foldlM addStep item
          = operations (keySteps key) >>= fun _ => pure item := by
        cases key <;> simp [keySteps, operations, addStep, ItemStep.take]
      have hmethod : (methodSteps a path depth (key, value)).foldlM addStep item
          = addOperation item name ⟨value, valuePath path key, depth⟩ := by
        rw [methodSteps, hname, addOperation, Format.addOperation, Option.bind_some]
        cases Method.ofName? name with
        | none => rfl
        | some method => simp [addStep, ItemStep.take]; rfl
      rw [hread, hsteps, List.foldlM_append, hfirst, bind_assoc]
      refine (bind_congr_at (text_apply hname) fun _ => rfl).trans ?_
      rw [bind_assoc]
      refine bind_congr_at rfl fun _ => ?_
      rw [pure_bind, pure_bind, List.foldlM_append, hmethod]
      exact bind_congr_at rfl fun item' => ih hrest item'

end

/-! ## Steps one after another

Taking a step and adding what it gives are two things.  `operations` takes the steps in a row and
adds nothing, so it says for each of them what it comes to behind the others, and repeated methods
are no concern of it.  `addStep` does both, as the reader does.  The two theorems here compare them
by induction on the steps, with the operations that are there already as a variable. -/

section
variable {a : Anchors} {n m k : ℕ} {item item' : PathItem} {steps before : List ItemStep}
  {x : ItemStep} {ops : List (Method × Operation)}

lemma contains_iff {item : PathItem} {method : Method} :
    item.contains method = true ↔ method ∈ item.entries.map (·.1) := by
  simp [Listing.contains]

lemma add_eq_ok_iff {method : Method} {operation : Operation} :
    item.add method operation = .ok item' ↔
      method ∉ item.entries.map (·.1) ∧ item'.entries = item.entries ++ [(method, operation)] := by
  constructor
  · intro h
    refine ⟨fun hmem => ?_, entries_of_add h⟩
    rw [PathItem.add, if_pos (contains_iff.mpr hmem)] at h
    exact absurd h (by simp)
  · rintro ⟨hnew, hentries⟩
    rw [PathItem.add, if_neg (fun h => hnew (contains_iff.mp h)), Except.ok.injEq]
    refine Listing.eq_of_entries ?_
    rw [hentries]
    exact setEntry_of_notMem hnew

lemma add_eq_error_iff {method : Method} {operation : Operation} {cause : Cause} :
    item.add method operation = .error cause ↔
      method ∈ item.entries.map (·.1) ∧ cause = .repeatedMethod method.name := by
  rw [PathItem.add, ← contains_iff]
  split_ifs with hcontains <;> simp [hcontains, eq_comm]

lemma addStep_key : addStep item .key = followAlias >>= fun _ => pure item := by
  simp [addStep, ItemStep.take]

lemma addStep_operation {method : Method} {c : Cursor} :
    addStep item (.operation method c) = c.optional operation >>= fun o =>
      orFail (PathItem.add item method (o.getD .blank)) := by
  simp [addStep, ItemStep.take]

lemma take_key_eq_ok : ItemStep.key.take a n = .ok (ops, m) ↔
    ops = [] ∧ followAlias a n = .ok ((), m) := by
  rw [ItemStep.take, bind_eq_ok]
  constructor
  · rintro ⟨⟨⟩, k, hfollow, hpure⟩
    obtain ⟨rfl, rfl⟩ := pure_eq_ok.mp hpure
    exact ⟨rfl, hfollow⟩
  · rintro ⟨rfl, hfollow⟩
    exact ⟨(), m, hfollow, pure_eq_ok.mpr ⟨rfl, rfl⟩⟩

lemma take_operation_eq_ok {method : Method} {c : Cursor} :
    (ItemStep.operation method c).take a n = .ok (ops, m) ↔
      ∃ o, c.optional operation a n = .ok (o, m) ∧ ops = [(method, o.getD .blank)] := by
  rw [ItemStep.take, bind_eq_ok]
  constructor
  · rintro ⟨o, k, hread, hpure⟩
    obtain ⟨rfl, rfl⟩ := pure_eq_ok.mp hpure
    exact ⟨o, hread, rfl⟩
  · rintro ⟨o, hread, rfl⟩
    exact ⟨o, m, hread, pure_eq_ok.mpr ⟨rfl, rfl⟩⟩

lemma keys_of_take (h : x.take a n = .ok (ops, m)) : ops.map (·.1) = x.methods := by
  cases x with
  | key =>
      obtain ⟨rfl, -⟩ := take_key_eq_ok.mp h
      rfl
  | operation method c =>
      obtain ⟨o, -, rfl⟩ := take_operation_eq_ok.mp h
      rfl

/-- A step adds what it gives, unless its method is there already. -/
lemma addStep_eq_ok_iff : addStep item x a n = .ok (item', m) ↔
    ∃ ops, x.take a n = .ok (ops, m) ∧ (item.entries.map (·.1) ++ x.methods).Nodup ∧
      item'.entries = item.entries ++ ops := by
  cases x with
  | key =>
      rw [addStep_key, bind_eq_ok]
      simp only [take_key_eq_ok, ItemStep.methods, List.append_nil]
      constructor
      · rintro ⟨⟨⟩, k, hfollow, hpure⟩
        obtain ⟨rfl, rfl⟩ := pure_eq_ok.mp hpure
        exact ⟨[], ⟨rfl, hfollow⟩, item.distinct, (List.append_nil _).symm⟩
      · rintro ⟨_, ⟨rfl, hfollow⟩, -, hentries⟩
        rw [List.append_nil] at hentries
        obtain rfl := Listing.eq_of_entries hentries
        exact ⟨(), m, hfollow, pure_eq_ok.mpr ⟨rfl, rfl⟩⟩
  | operation method c =>
      have hnew : (item.entries.map (·.1) ++ [method]).Nodup ↔
          method ∉ item.entries.map (·.1) := by
        rw [List.nodup_append_comm, List.singleton_append, List.nodup_cons,
          and_iff_left item.distinct]
      rw [addStep_operation, bind_eq_ok]
      simp only [take_operation_eq_ok, ItemStep.methods, hnew]
      constructor
      · rintro ⟨o, k, hread, hadd⟩
        obtain ⟨hitem, rfl⟩ := orFail_eq_ok_iff.mp hadd
        exact ⟨_, ⟨o, hread, rfl⟩, add_eq_ok_iff.mp hitem⟩
      · rintro ⟨_, ⟨o, hread, rfl⟩, hitem⟩
        exact ⟨o, m, hread, orFail_eq_ok_iff.mpr ⟨add_eq_ok_iff.mpr hitem, rfl⟩⟩

lemma operations_nil_eq_ok : operations [] a n = .ok (ops, m) ↔ ops = [] ∧ n = m := by
  rw [operations, pure_eq_ok, eq_comm]

/-- The first step is taken before the others. -/
lemma operations_cons_eq_ok : operations (x :: steps) a n = .ok (ops, m) ↔ ∃ first k rest,
    x.take a n = .ok (first, k) ∧ operations steps a k = .ok (rest, m) ∧ ops = first ++ rest := by
  rw [operations, bind_eq_ok]
  constructor
  · rintro ⟨first, k, hfirst, htail⟩
    obtain ⟨rest, j, hrest, hpure⟩ := bind_eq_ok.mp htail
    obtain ⟨rfl, rfl⟩ := pure_eq_ok.mp hpure
    exact ⟨first, k, rest, hfirst, hrest, rfl⟩
  · rintro ⟨first, k, rest, hfirst, hrest, rfl⟩
    exact ⟨first, k, hfirst, bind_eq_ok.mpr ⟨rest, m, hrest, pure_eq_ok.mpr ⟨rfl, rfl⟩⟩⟩

/-- **Operations are all added** if the steps can be taken one after another and no method comes
twice or is there already. -/
lemma foldlM_addStep_eq_ok_iff : steps.foldlM addStep item a n = .ok (item', m) ↔
    ∃ ops, operations steps a n = .ok (ops, m) ∧
      (item.entries.map (·.1) ++ steps.flatMap ItemStep.methods).Nodup ∧
        item'.entries = item.entries ++ ops := by
  induction steps generalizing item n with
  | nil =>
      have hend : item'.entries = item.entries ++ [] ↔ item = item' := by
        rw [List.append_nil, eq_comm]
        exact ⟨Listing.eq_of_entries, congrArg _⟩
      simp [pure_eq_ok, operations_nil_eq_ok, item.distinct, ← hend, and_comm]
  | cons x steps ih =>
      rw [List.foldlM_cons, bind_eq_ok]
      simp only [addStep_eq_ok_iff, ih, operations_cons_eq_ok, List.flatMap_cons,
        ← List.append_assoc]
      constructor
      · rintro ⟨t, k, ⟨first, hfirst, -, ht⟩, rest, hrest, hnodup, hitem⟩
        refine ⟨_, ⟨first, k, rest, hfirst, hrest, rfl⟩, ?_, ?_⟩
        · rwa [ht, List.map_append, keys_of_take hfirst] at hnodup
        · rw [hitem, ht, List.append_assoc]
      · rintro ⟨_, ⟨first, k, rest, hfirst, hrest, rfl⟩, hnodup, hitem⟩
        have hkeys : (item.entries ++ first).map (·.1) = item.entries.map (·.1) ++ x.methods := by
          rw [List.map_append, keys_of_take hfirst]
        have hnodup' : ((item.entries ++ first).map (·.1)).Nodup :=
          hkeys ▸ (List.nodup_append.mp hnodup).1
        refine ⟨⟨item.entries ++ first, hnodup'⟩, k, ⟨first, hfirst, hkeys ▸ hnodup', rfl⟩, rest,
          hrest, ?_, ?_⟩
        · rwa [hkeys]
        · rw [hitem, List.append_assoc]

/-! ### Faults

A step is at fault behind others that can all be taken.  A method that repeats an earlier one is at
fault only if what is written under it can be read, since it is read before it is added. -/

/-- What is wrong with a step that stands behind others: there is no room for an alias, an operation
cannot be read, or else it can and its method has been there before. -/
inductive ItemFault (a : Anchors) (n : ℕ) (before : List ItemStep) : ItemStep → DataError → Prop
  | full {ops : List (Method × Operation)} {k : ℕ}
      (earlier : operations before a n = .ok (ops, k)) (full : a.limit < k + 1) :
      ItemFault a n before .key .tooManyAliases
  | unread {method : Method} {c : Cursor} {ops : List (Method × Operation)} {k : ℕ}
      {e : DataError} (earlier : operations before a n = .ok (ops, k))
      (fails : c.optional operation a k = .error e) :
      ItemFault a n before (.operation method c) e
  | repeated {method : Method} {c : Cursor} {ops : List (Method × Operation)} {k m : ℕ}
      {o : Option Operation} (earlier : operations before a n = .ok (ops, k))
      (reads : c.optional operation a k = .ok (o, m))
      (again : method ∈ before.flatMap ItemStep.methods) :
      ItemFault a n before (.operation method c) (.fault (.repeatedMethod method.name) none)

lemma keys_of_operations (h : operations steps a n = .ok (ops, m)) :
    ops.map (·.1) = steps.flatMap ItemStep.methods := by
  induction steps generalizing n ops with
  | nil => rw [(operations_nil_eq_ok.mp h).1]; rfl
  | cons x steps ih =>
      obtain ⟨first, k, rest, hfirst, hrest, rfl⟩ := operations_cons_eq_ok.mp h
      rw [List.map_append, List.flatMap_cons, keys_of_take hfirst, ih hrest]

lemma operations_append_singleton {first : List (Method × Operation)}
    (hbefore : operations before a n = .ok (ops, k)) (hlast : x.take a k = .ok (first, m)) :
    operations (before ++ [x]) a n = .ok (ops ++ first, m) := by
  induction before generalizing n ops with
  | nil =>
      obtain ⟨rfl, rfl⟩ := operations_nil_eq_ok.mp hbefore
      exact operations_cons_eq_ok.mpr
        ⟨first, m, [], hlast, operations_nil_eq_ok.mpr ⟨rfl, rfl⟩, (List.append_nil _).symm⟩
  | cons y before ih =>
      obtain ⟨head, j, rest, hhead, hrest, rfl⟩ := operations_cons_eq_ok.mp hbefore
      exact operations_cons_eq_ok.mpr
        ⟨head, j, rest ++ first, hhead, ih hrest, List.append_assoc _ _ _⟩

lemma addStep_key_eq_error {e : DataError} : addStep item .key a n = .error e ↔
    a.limit < n + 1 ∧ e = .tooManyAliases := by
  rw [addStep_key, bind_eq_error, followAlias_apply]
  split_ifs with hfull
  · simp [hfull, eq_comm]
  · refine iff_of_false ?_ fun h => hfull h.1
    rintro (hfails | ⟨_, _, -, hpure⟩)
    · cases hfails
    · exact pure_ne_error hpure

lemma addStep_operation_eq_error {method : Method} {c : Cursor} {e : DataError} :
    addStep item (.operation method c) a n = .error e ↔
      c.optional operation a n = .error e ∨
        (∃ o k, c.optional operation a n = .ok (o, k)) ∧ method ∈ item.entries.map (·.1) ∧
          e = .fault (.repeatedMethod method.name) none := by
  rw [addStep_operation, bind_eq_error]
  simp only [orFail_eq_error_iff, add_eq_error_iff]
  constructor
  · rintro (hfails | ⟨o, k, hread, cause, ⟨hmem, rfl⟩, he⟩)
    · exact .inl hfails
    · exact .inr ⟨⟨o, k, hread⟩, hmem, he⟩
  · rintro (hfails | ⟨⟨o, k, hread⟩, hmem, he⟩)
    · exact .inl hfails
    · exact .inr ⟨o, k, hread, _, ⟨hmem, rfl⟩, he⟩

lemma itemFault_iff {e : DataError} (hbefore : operations before a n = .ok (item.entries, k)) :
    ItemFault a n before x e ↔ addStep item x a k = .error e := by
  have hkeys := keys_of_operations hbefore
  have hsame : ∀ {ops : List (Method × Operation)} {l : ℕ},
      operations before a n = .ok (ops, l) → l = k := fun h =>
    (Prod.mk.inj (Except.ok.inj (h.symm.trans hbefore))).2
  cases x with
  | key =>
      rw [addStep_key_eq_error]
      constructor
      · rintro ⟨earlier, full⟩
        exact ⟨hsame earlier ▸ full, rfl⟩
      · rintro ⟨hfull, rfl⟩
        exact .full hbefore hfull
  | operation method c =>
      rw [addStep_operation_eq_error, hkeys]
      constructor
      · rintro (_ | ⟨earlier, fails⟩ | ⟨earlier, reads, again⟩)
        · exact .inl (hsame earlier ▸ fails)
        · exact .inr ⟨⟨_, _, hsame earlier ▸ reads⟩, again, rfl⟩
      · rintro (hfails | ⟨⟨o, m, hreads⟩, hmem, rfl⟩)
        · exact .unread hbefore hfails
        · exact .repeated hbefore hreads hmem

/-- **Otherwise the first step at fault is reported.** -/
lemma foldlM_addStep_eq_error_iff {e : DataError}
    (hbefore : operations before a n = .ok (item.entries, k)) :
    steps.foldlM addStep item a k = .error e ↔
      FirstFault (fun more => ItemFault a n (before ++ more)) steps e := by
  induction steps generalizing before item k with
  | nil => simp [not_firstFault_nil, pure_ne_error]
  | cons x steps ih =>
      rw [List.foldlM_cons, bind_eq_error, firstFault_cons, List.append_nil]
      simp only [itemFault_iff hbefore]
      refine or_congr_right ?_
      cases hadd : addStep item x a k with
      | error e' => simp
      | ok r =>
          obtain ⟨t, l⟩ := r
          obtain ⟨first, hfirst, -, hentries⟩ := addStep_eq_ok_iff.mp hadd
          have hbefore' : operations (before ++ [x]) a n = .ok (t.entries, l) := by
            rw [hentries]
            exact operations_append_singleton hbefore hfirst
          simpa using ih hbefore'

end

/-! ## Mappings

A mapping is entered once, which takes one of the depth that is allowed and gives errors in it a
place.  What is between that and its entries is the matter of the lemmas on nodes. -/

/-- What is expected under a path. -/
def pathItemExpected : String := "a path item mapping HTTP methods to operations"

section
variable {a : Anchors} {c d : Cursor} {n k depth start : ℕ} {tag : Option Yaml.Tag}
  {entries : List (Node × Node)}

/-- Which mappings are read at all: those without a tag of an application. -/
lemma pathItem_eq_of_mapping (hresolve : c.resolve a n = .ok (d, k))
    (hmapping : d.node = .mapping start tag entries) (hdepth : d.depth = depth + 1) :
    c.pathItem a n = d.placing
      (if tag = some .custom then failWith (.invalidType .enumeration pathItemExpected)
      else readEntries d.path depth "a string" addOperation .empty entries) a k := by
  have hread : c.pathItem = entriesOrNull pathItemExpected .empty addOperation c := rfl
  rw [hread, entriesOrNull, bind_of_ok hresolve]
  obtain ⟨node, path, _⟩ := d
  dsimp only at hmapping hdepth
  subst hmapping hdepth
  have hcustom : isCustom (.mapping start tag entries) = decide (tag = some .custom) := by
    simp [isCustom, beq_eq_decide]
  simp only [hcustom, decide_eq_true_eq]
  rfl

/-- **What is read under a path**, if a mapping is written there whose keys are scalars or aliases
of scalars.  Only the keys that name methods count, and they are read in order, beside the aliases
among all keys, which are followed.  The mapping is read exactly if what is written under each
method is, as null or as an operation, no method comes twice, and there is room for the aliases;
otherwise the first step at fault is reported.  A mapping with a tag of an application is refused.
-/
theorem pathItem_of_mapping (hresolve : c.resolve a n = .ok (d, k))
    (hmapping : d.node = .mapping start tag entries) (hdepth : d.depth = depth + 1)
    (hkeys : ∀ e ∈ entries, (a.name? e.1).isSome) :
    (∀ method under, .operation method under ∈ itemSteps a d.path depth entries ↔
      ∃ key value text, (key, value) ∈ entries ∧ a.name? key = some text ∧
        text.toList.map Text.lower = method.name.toList ∧
          under = ⟨value, valuePath d.path key, depth⟩) ∧
    (itemSteps a d.path depth entries).length = (entries.map fun e => e.1.ownAliases).sum +
      ((itemSteps a d.path depth entries).flatMap ItemStep.methods).length ∧
    (tag = some .custom → c.pathItem a n =
      .error (.fault (.invalidType .enumeration pathItemExpected) (some d.place))) ∧
    (tag ≠ some .custom →
      (∀ item m, c.pathItem a n = .ok (item, m) ↔
        operations (itemSteps a d.path depth entries) a k = .ok (item.entries, m) ∧
          ((itemSteps a d.path depth entries).flatMap ItemStep.methods).Nodup) ∧
      ∀ e, c.pathItem a n = .error e ↔
        ∃ raw, FirstFault (ItemFault a k) (itemSteps a d.path depth entries) raw ∧
          e = raw.placedAt d.place) := by
  refine ⟨fun _ _ => mem_itemSteps, length_itemSteps, fun htag => ?_,
    fun htag => ⟨fun item m => ?_, fun e => ?_⟩⟩
  · rw [pathItem_eq_of_mapping hresolve hmapping hdepth, if_pos htag]
    rfl
  · rw [pathItem_eq_of_mapping hresolve hmapping hdepth, if_neg htag, placing_eq_ok,
      readEntries_addOperation hkeys, foldlM_addStep_eq_ok_iff]
    simp [Listing.empty, and_comm]
  · rw [pathItem_eq_of_mapping hresolve hmapping hdepth, if_neg htag, placing_eq_error,
      readEntries_addOperation hkeys]
    have hstart : operations [] a k = .ok ((.empty : PathItem).entries, k) :=
      operations_nil_eq_ok.mpr ⟨rfl, rfl⟩
    simp only [foldlM_addStep_eq_error_iff hstart, List.nil_append]

end

/-- What aliases stand for: a sequence, and a key. -/
def itemAnchors : Anchors :=
  ⟨[(9, .sequence 70 none []), (3, .scalar 60 none .plain "Delete")], 100⟩

/-- A mapping with three methods, in other cases, the last of them by an alias, and two keys that
name none. -/
def mixedItem : Node := .mapping 0 none
  [(.scalar 0 none .plain "summary", .sequence 9 none []),
    (.scalar 12 none .plain "GET", .empty 16), (.scalar 17 none .plain "x-y", .alias 22 9),
    (.scalar 25 none .plain "Put", .mapping 30 none
      [(.scalar 31 none .plain "operationId", .scalar 44 none .plain "a")]),
    (.alias 46 3, .empty 49)]

/-- A mapping that names a method twice. -/
def repeatedItem : Node := .mapping 0 none
  [(.scalar 0 none .plain "get", .empty 4), (.scalar 5 none .plain "GET", .empty 9)]

/-- The first of its methods, as it stands there. -/
def firstRepeated : ItemStep := .operation .get ⟨.empty 4, DataPath.root.key "get", 125⟩

/-- The methods are read in order, and one alias is followed, that of a key.  A method that comes
twice is refused. -/
theorem pathItem_of_mapping_mixed :
    (∃ item, pathItem ⟨mixedItem, .root, 126⟩ itemAnchors 0 = .ok (item, 1) ∧
      item.entries = [(.get, .blank), (.put, ⟨some "a", none, none, none⟩), (.delete, .blank)]) ∧
    pathItem ⟨repeatedItem, .root, 126⟩ itemAnchors 0
      = .error (.fault (.repeatedMethod "get") (some ⟨.root, 0⟩)) := by
  have hmixed := pathItem_of_mapping (a := itemAnchors) (n := 0)
    (c := ⟨mixedItem, .root, 126⟩) rfl rfl rfl (by decide)
  have hrepeated := pathItem_of_mapping (a := itemAnchors) (n := 0)
    (c := ⟨repeatedItem, .root, 126⟩) rfl rfl rfl (by decide)
  constructor
  · refine ⟨⟨[(.get, .blank), (.put, ⟨some "a", none, none, none⟩), (.delete, .blank)], by decide⟩,
      ?_, rfl⟩
    exact ((hmixed.2.2.2 (by decide)).1 _ _).mpr ⟨rfl, by decide⟩
  · have hread : operations [firstRepeated] itemAnchors 0 = .ok ([(.get, .blank)], 0) := rfl
    have hagain : Cursor.optional operation ⟨.empty 9, DataPath.root.key "GET", 125⟩ itemAnchors 0
        = .ok (none, 0) := rfl
    refine ((hrepeated.2.2.2 (by decide)).2 _).mpr ⟨_, ⟨[firstRepeated], _, [], rfl,
      .repeated hread hagain List.mem_cons_self, fun earlier b later hbefore e hfault => ?_⟩, rfl⟩
    obtain ⟨rfl, rfl⟩ : earlier = [] ∧ b = firstRepeated := by
      cases earlier <;> simp_all
    have hadd : addStep .empty firstRepeated itemAnchors 0
        = .ok (⟨[(.get, .blank)], by decide⟩, 0) := rfl
    have hstart : operations [] itemAnchors 0 = .ok ((.empty : PathItem).entries, 0) := rfl
    simp [itemFault_iff hstart, hadd] at hfault

/-- A document with a tag of an application on what is written under a path. -/
def taggedItem : String := "paths:\n  /a: !t\n    get: \x7b\x7d\n"

/-- **A mapping with a tag is refused**, although its key names a method, once, and an operation is
written under it. -/
theorem not_read_taggedItem : ∃ d entries,
    Yaml.Document.parse taggedItem = .ok d ∧
    d.paths = [("/a", .mapping 13 (some .custom) entries)] ∧
    (∀ e ∈ entries, (d.anchors.name? e.1).isSome) ∧
    operations (itemSteps d.anchors ((DataPath.root.key "paths").key "/a") 125 entries) d.anchors 0
      = .ok ([(.get, .blank)], 0) ∧
    ((itemSteps d.anchors ((DataPath.root.key "paths").key "/a") 125 entries).flatMap
      ItemStep.methods).Nodup ∧
    Api.parse taggedItem = .error (.data (.fault (.invalidType .enumeration pathItemExpected)
      (some ⟨(DataPath.root.key "paths").key "/a", 13⟩))) := by
  refine ⟨⟨some (.mapping 0 none [(.scalar 0 none .plain "paths", .mapping 9 none
    [(.scalar 9 none .plain "/a", .mapping 13 (some .custom)
      [(.scalar 20 none .plain "get", .mapping 25 none [])])])]), []⟩, _,
    by cbv, rfl, ?_, rfl, ?_, ?_⟩
  · decide
  · decide
  · decide +kernel

end Cursor

end WorkerGen
