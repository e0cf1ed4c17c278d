import Mathlib
import WorkerGen.Data.Format
import WorkerGen.Proofs.Data.Reading

/-!
# What is read does not depend on where nodes start

A node knows where it starts only so that errors can tell.  `Node.unplaced` forgets it, and
`outcome` forgets which error a reading ends with.  What then is left of a reading is the same for a
node and for the unplaced node (`IgnoresStarts`), so two documents that differ in white space, in
comments or in the lengths of their scalars are read alike.

Other than `Alike`, this compares the readings themselves and not only their values: the outcome has
the number of aliases that have been followed, and it says that a reading fails.  It is an equation,
and the lemmas for the combinators rewrite `outcome` past them, down to where a node is looked at.
A node is looked at by its kind, its tag, its text and the names of its entries, and all of these an
unplaced node has too.

The nesting of values is bounded, and so is the number of aliases that are followed, by the size of
the document; that size does not depend on where nodes stand either (`weight_unplaced`).
-/

namespace WorkerGen

open Yaml (Node)

/-! ## Outcomes

An outcome is that of a bind if it is the outcome of the parts (`outcome_bind`). -/

namespace Reader

variable {α β : Type} {a b : Anchors}

/-- What a reading gives, without its error if it fails. -/
def outcome (a : Anchors) (x : Reader α) : StateT ℕ Option α := fun n => (x a n).toOption

lemma outcome_eq_some {x : Reader α} {n m : ℕ} {v : α} :
    outcome a x n = some (v, m) ↔ x a n = .ok (v, m) := by
  rw [outcome]
  cases x a n <;> simp [Except.toOption]

@[simp]
lemma outcome_pure (v : α) : outcome a (pure v) = pure v := rfl

@[simp]
lemma outcome_bind (x : Reader α) (f : α → Reader β) :
    outcome a (x >>= f) = outcome a x >>= fun v => outcome a (f v) := by
  funext n
  have hbind : (outcome a x >>= fun v => outcome a (f v)) n
      = (x a n).toOption.bind fun r => (f r.1 a r.2).toOption := rfl
  rw [outcome, bind_apply, hbind]
  cases x a n <;> rfl

@[simp]
lemma outcome_map (f : α → β) (x : Reader α) : outcome a (f <$> x) = f <$> outcome a x := by
  rw [map_eq_pure_bind, map_eq_pure_bind, outcome_bind]
  rfl

@[simp]
lemma outcome_throw (e : DataError) : outcome a (throw e : Reader α) = failure := rfl

@[simp]
lemma outcome_failWith (cause : Cause) : outcome a (failWith cause : Reader α) = failure := rfl

@[simp]
lemma outcome_placing (c : Cursor) (x : Reader α) : outcome a (c.placing x) = outcome a x := by
  funext n
  ext ⟨v, m⟩
  rw [outcome_eq_some, outcome_eq_some, placing_eq_ok]

lemma outcome_orFail (r : Except Cause α) :
    outcome a (Cursor.orFail r) = outcome b (Cursor.orFail r) := by
  cases r <;> rfl

@[simp]
lemma outcome_enter (c : Cursor) : outcome a c.enter = match c.depth with
    | 0 => failure
    | depth + 1 => pure depth := by
  rw [Cursor.enter]
  cases c.depth <;> rfl

end Reader

/-! ## Nodes without their places

The places are forgotten in all nodes below, and in the nodes that aliases refer to, so that an
alias in a document without places leads to a node without its place. -/

namespace Yaml.Node

mutual

/-- A node as if it and all nodes in it started where the text starts. -/
def unplaced : Node → Node
  | .scalar _ tag style text => .scalar 0 tag style text
  | .alias _ target => .alias 0 target
  | .sequence _ tag items => .sequence 0 tag (unplacedItems items)
  | .mapping _ tag entries => .mapping 0 tag (unplacedEntries entries)

/-- The items of a sequence without their places. -/
def unplacedItems : List Node → List Node
  | [] => []
  | node :: rest => unplaced node :: unplacedItems rest

/-- The entries of a mapping without their places. -/
def unplacedEntries : List (Node × Node) → List (Node × Node)
  | [] => []
  | (key, value) :: rest => (unplaced key, unplaced value) :: unplacedEntries rest

end

mutual

lemma subnodes_unplaced : ∀ node : Node, node.unplaced.subnodes = node.subnodes.map unplaced
  | .scalar .. => by simp [unplaced, subnodes]
  | .alias .. => by simp [unplaced, subnodes]
  | .sequence _ _ items => by simp [unplaced, subnodes, subnodesOfItems_unplaced items]
  | .mapping _ _ entries => by simp [unplaced, subnodes, subnodesOfEntries_unplaced entries]

lemma subnodesOfItems_unplaced : ∀ items : List Node,
    subnodesOfItems (unplacedItems items) = (subnodesOfItems items).map unplaced
  | [] => by simp [unplacedItems, subnodesOfItems]
  | node :: rest => by
      simp [unplacedItems, subnodesOfItems, subnodes_unplaced node, subnodesOfItems_unplaced rest]

lemma subnodesOfEntries_unplaced : ∀ entries : List (Node × Node),
    subnodesOfEntries (unplacedEntries entries) = (subnodesOfEntries entries).map unplaced
  | [] => by simp [unplacedEntries, subnodesOfEntries]
  | (key, value) :: rest => by
      simp [unplacedEntries, subnodesOfEntries, subnodes_unplaced key, subnodes_unplaced value,
        subnodesOfEntries_unplaced rest]

end

/-- The size of a node does not depend on where it stands. -/
lemma weight_unplaced (node : Node) : node.unplaced.weight = node.weight := by
  rw [weight, subnodes_unplaced, List.foldr_map, weight]
  congr 1
  funext n size
  cases n <;> rfl

end Yaml.Node

/-- What following an alias needs, without the places of nodes. -/
def Anchors.unplaced (a : Anchors) : Anchors :=
  ⟨a.nodes.map fun e => (e.1, e.2.unplaced), a.limit⟩

lemma Anchors.follow_unplaced (a : Anchors) (node : Node) :
    a.unplaced.follow node.unplaced = (a.follow node).unplaced := by
  cases node with
  | «alias» start target =>
      have hlookup : ∀ nodes : List (ℕ × Node),
          (nodes.map fun e => (e.1, e.2.unplaced)).lookup target
            = (nodes.lookup target).map Node.unplaced := by
        intro nodes
        induction nodes with
        | nil => rfl
        | cons e rest ih => cases h : target == e.1 <;> simp [List.lookup, h, ih]
      simp only [Node.unplaced, follow, Anchors.unplaced, hlookup]
      cases a.nodes.lookup target <;> simp [Node.unplaced]
  | _ => simp [follow, Node.unplaced]

namespace Cursor

open Reader

variable {α β σ : Type}

/-- A cursor at the unplaced node. -/
def unplaced (c : Cursor) : Cursor := ⟨c.node.unplaced, c.path, c.depth⟩

/-! ### Readers that ignore where nodes start

Each combinator of readers keeps the property, given what it needs of its parts. -/

/-- Whether a reader does not depend on where nodes start. -/
def IgnoresStarts (read : Cursor → Reader α) : Prop :=
  ∀ a c, outcome a (read c) = outcome a.unplaced (read c.unplaced)

lemma outcome_resolve_alias {a : Anchors} {start target : ℕ} {path : DataPath} {depth : ℕ} :
    outcome a (resolve ⟨.alias start target, path, depth⟩) = fun n =>
      if a.limit < n + 1 then none
      else some (⟨a.follow (.alias start target), path, depth⟩, n + 1) := by
  funext n
  rw [outcome, resolve_alias]
  split_ifs <;> rfl

namespace IgnoresStarts

lemma pure (v : α) : IgnoresStarts fun _ => Pure.pure v := fun _ _ => rfl

lemma failWith (cause : Cursor → Cause) :
    IgnoresStarts fun c => (WorkerGen.failWith (cause c) : Reader α) := fun _ _ => rfl

lemma placing {read : Cursor → Reader α} (h : IgnoresStarts read) :
    IgnoresStarts fun c => c.placing (read c) := by
  intro a c
  rw [outcome_placing, outcome_placing, h a c]

lemma map {read : Cursor → Reader α} (h : IgnoresStarts read) (f : α → β) :
    IgnoresStarts fun c => f <$> read c := by
  intro a c
  simp only [outcome_map, h a c]

lemma bind {read : Cursor → Reader α} (h : IgnoresStarts read) {f : α → Cursor → Reader β}
    (hf : ∀ v, IgnoresStarts (f v)) : IgnoresStarts fun c => read c >>= fun v => f v c := by
  intro a c
  simp only [outcome_bind, h a c, fun v => hf v a c]

/-- What stands behind a node may be looked at first. -/
lemma resolve {read : Cursor → Reader α} (h : IgnoresStarts read) :
    IgnoresStarts fun c => c.resolve >>= read := by
  intro a c
  obtain ⟨node, path, depth⟩ := c
  cases node with
  | «alias» start target =>
      have hbehind : (⟨a.unplaced.follow (.alias 0 target), path, depth⟩ : Cursor)
          = unplaced ⟨a.follow (.alias start target), path, depth⟩ := by
        rw [unplaced, ← a.follow_unplaced, Node.unplaced]
      simp only [unplaced, Node.unplaced, outcome_bind, outcome_resolve_alias]
      funext n
      have hbound : a.unplaced.limit = a.limit := rfl
      by_cases hlimit : a.limit < n + 1
      · simp [Bind.bind, StateT.bind, hbound, hlimit]
      · simp [Bind.bind, StateT.bind, hbound, hlimit, hbehind, h a]
  | scalar => exact h a _
  | sequence => exact h a _
  | mapping => exact h a _

end IgnoresStarts

/-! ## Texts and values

A text is looked for behind an alias, and so is null.  Following the alias gives the same node
without its place. -/

lemma ignoresStarts_text (expected : String) : IgnoresStarts (text expected) := by
  refine .resolve fun a c => ?_
  obtain ⟨node, path, depth⟩ := c
  cases node <;> simp [unplaced, Node.unplaced]

lemma ignoresStarts_word16 : IgnoresStarts word16 := by
  refine .resolve fun a c => ?_
  obtain ⟨node, path, depth⟩ := c
  cases node with
  | scalar start tag style s =>
      simp only [unplaced, Node.unplaced, outcome_placing]
      split_ifs
      · split
        · split_ifs <;> simp
        · simp
      · simp
  | _ => simp [unplaced, Node.unplaced]

/-- A value that may be null ignores where it starts if the value does. -/
lemma IgnoresStarts.optional {read : Cursor → Reader α} (hread : IgnoresStarts read) :
    IgnoresStarts (optional read) := by
  refine .resolve fun a c => ?_
  have hsome := (hread.map some) a c
  obtain ⟨node, path, depth⟩ := c
  cases node with
  | scalar start tag style s =>
      simp only [unplaced, Node.unplaced] at hsome ⊢
      cases style with
      | plain =>
          simp only
          split
          · split_ifs <;> simp
          · exact hsome
          · split_ifs
            · simp
            · exact hsome
      | _ => exact hsome
  | _ => exact hsome

/-! ## Collections

The path and the depth of what is inside of a collection are the same for a node and for the
unplaced node.  Entries are read into what has been read before, so the outcome of an entry is
compared for every state of the reader. -/

lemma outcome_readItems {a b : Anchors} {read read' : Cursor → Reader α} {path : DataPath}
    {depth : ℕ} (hread : ∀ c, outcome a (read c) = outcome b (read' c.unplaced)) :
    ∀ (items : List Node) (index : ℕ), outcome a (readItems path depth read index items)
      = outcome b (readItems path depth read' index (Node.unplacedItems items))
  | [], _ => rfl
  | node :: rest, index => by
      have hhead := hread ⟨node, path.item index, depth⟩
      simp only [Node.unplacedItems, readItems, outcome_bind, hhead,
        outcome_readItems hread rest (index + 1)]
      rfl

lemma IgnoresStarts.items {read : Cursor → Reader α} (hread : IgnoresStarts read) :
    IgnoresStarts (items read) := by
  refine .resolve fun a c => ?_
  obtain ⟨node, path, depth⟩ := c
  cases node with
  | sequence start tag nodes =>
      simp only [unplaced, Node.unplaced, outcome_placing, outcome_bind, outcome_enter,
        outcome_readItems (hread a)]
  | scalar start tag style s =>
      simp only [unplaced, Node.unplaced, outcome_placing]
      split <;> split <;> simp_all
  | _ => simp [unplaced, Node.unplaced]

lemma valuePath_unplaced (path : DataPath) (key : Node) :
    valuePath path key.unplaced = valuePath path key := by
  cases key <;> rfl

lemma outcome_readEntries {a : Anchors} {keyExpected : String}
    {step : σ → String → Cursor → Reader σ} {path : DataPath} {depth : ℕ}
    (hstep : ∀ s name, IgnoresStarts (step s name)) :
    ∀ (entries : List (Node × Node)) (s : σ),
      outcome a (readEntries path depth keyExpected step s entries)
        = outcome a.unplaced (readEntries path depth keyExpected step s
            (Node.unplacedEntries entries))
  | [], _ => rfl
  | (key, value) :: rest, s => by
      have hname := ignoresStarts_text keyExpected a ⟨key, path, depth⟩
      have hvalue : ∀ name, outcome a (step s name ⟨value, valuePath path key, depth⟩)
          = outcome a.unplaced (step s name ⟨value.unplaced, valuePath path key, depth⟩) :=
        fun name => hstep s name a _
      simp only [Node.unplacedEntries, readEntries, outcome_bind, hname, hvalue,
        outcome_readEntries hstep rest, valuePath_unplaced]
      rfl

/-- The entries of a mapping ignore where they start if each of them does. -/
lemma IgnoresStarts.entries {expected keyExpected : String} {init : σ}
    {step : σ → String → Cursor → Reader σ} {finish : σ → Reader α}
    (hstep : ∀ s name, IgnoresStarts (step s name))
    (hfinish : ∀ s, IgnoresStarts fun _ => finish s) :
    IgnoresStarts (entries expected keyExpected init step finish) := by
  refine .resolve fun a c => ?_
  have hend : ∀ s, outcome a (finish s) = outcome a.unplaced (finish s) := fun s => hfinish s a c
  obtain ⟨node, path, depth⟩ := c
  cases node with
  | mapping start tag nodes =>
      have hread : ∀ depth, outcome a (readEntries path depth keyExpected step init nodes) = _ :=
        fun _ => outcome_readEntries hstep nodes init
      simp only [unplaced, Node.unplaced, outcome_placing, outcome_bind, outcome_enter, hread, hend]
  | scalar start tag style s =>
      simp only [unplaced, Node.unplaced, outcome_placing]
      split <;> split <;> simp_all
  | _ => simp [unplaced, Node.unplaced]

lemma IgnoresStarts.record {name : String} {init : σ} {field : σ → String → Cursor → Reader σ}
    {finish : σ → Reader α} (hfield : ∀ s name, IgnoresStarts (field s name))
    (hfinish : ∀ s, IgnoresStarts fun _ => finish s) :
    IgnoresStarts (record name init field finish) := .entries hfield hfinish

/-- A tag of an application is refused wherever it stands. -/
lemma IgnoresStarts.unlessCustom {read : Cursor → Reader α} (h : IgnoresStarts read)
    (cause : Cause) :
    IgnoresStarts fun c => if isCustom c.node then WorkerGen.failWith cause else read c := by
  intro a c
  have hcustom : isCustom c.unplaced.node = isCustom c.node := by
    rw [unplaced]
    cases c.node <;> rfl
  cases hc : isCustom c.node with
  | true => simp [hcustom, hc]
  | false => simpa [hcustom, hc] using h a c

lemma IgnoresStarts.entriesOrNull {expected : String} {init : σ}
    {step : σ → String → Cursor → Reader σ} (hstep : ∀ s name, IgnoresStarts (step s name)) :
    IgnoresStarts (entriesOrNull expected init step) := by
  refine .resolve (.placing (.unlessCustom (fun a c => ?_) _))
  obtain ⟨node, path, depth⟩ := c
  cases node with
  | mapping start tag nodes =>
      have hread : ∀ depth, outcome a (readEntries path depth "a string" step init nodes) = _ :=
        fun _ => outcome_readEntries hstep nodes init
      simp only [unplaced, Node.unplaced, outcome_bind, outcome_enter, hread]
  | scalar start tag style s =>
      simp only [unplaced, Node.unplaced]
      split <;> rfl
  | _ => simp [unplaced, Node.unplaced]

/-! ## Any value

A value may have values in it to any depth that is left.  The lemmas are by induction on the depth,
and take the statement for one less as a hypothesis on all items or members at once. -/

lemma outcome_readMembers {a b : Anchors} {read : Cursor → Reader Json} {path : DataPath}
    {depth : ℕ} (hread : ∀ c, outcome a (read c) = outcome b (read c.unplaced))
    (htext : ∀ expected c, outcome a (text expected c) = outcome b (text expected c.unplaced)) :
    ∀ (entries : List (Node × Node)) (members : List (String × Json)),
      outcome a (readMembers path depth read members entries)
        = outcome b (readMembers path depth read members (Node.unplacedEntries entries))
  | [], _ => rfl
  | (key, value) :: rest, members => by
      have hname := fun expected => htext expected ⟨key, path, depth⟩
      have hvalue := hread ⟨value, valuePath path key, depth⟩
      simp only [Node.unplacedEntries, readMembers, outcome_bind, hname, hvalue,
        outcome_readMembers hread htext rest, valuePath_unplaced]
      rfl

/-- The depth that is left is the same for the items and members of a value. -/
lemma ignoresStarts_jsonWithin_of {depth : ℕ}
    (hinside : ∀ k, depth = k + 1 → IgnoresStarts (jsonWithin k)) :
    IgnoresStarts (jsonWithin depth) := by
  intro a c
  rw [jsonWithin, jsonWithin]
  refine IgnoresStarts.resolve (.placing (.unlessCustom (fun a c => ?_) _)) a c
  obtain ⟨node, path, _⟩ := c
  cases node with
  | scalar start tag style s => exact outcome_orFail _
  | «alias» => rfl
  | sequence start tag items =>
      cases depth with
      | zero => rfl
      | succ depth =>
          simp only [unplaced, Node.unplaced, outcome_bind, outcome_readItems (hinside _ rfl a)]
          rfl
  | mapping start tag entries =>
      cases depth with
      | zero => rfl
      | succ depth =>
          simp only [unplaced, Node.unplaced, outcome_bind,
            outcome_readMembers (hinside _ rfl a) fun expected => ignoresStarts_text expected a]
          rfl

lemma ignoresStarts_jsonWithin : ∀ depth, IgnoresStarts (jsonWithin depth)
  | 0 => ignoresStarts_jsonWithin_of fun _ hk => absurd hk (by simp)
  | depth + 1 => ignoresStarts_jsonWithin_of fun k hk =>
      Nat.succ.inj hk ▸ ignoresStarts_jsonWithin depth

lemma ignoresStarts_json : IgnoresStarts json := fun a c => ignoresStarts_jsonWithin c.depth a c

end Cursor

/-! ## Buffered values -/

namespace Buffered

open Cursor Reader

lemma outcome_readPairs {a b : Anchors} {read : Cursor → Reader Buffered} {path : DataPath}
    {depth : ℕ} (hread : ∀ c, outcome a (read c) = outcome b (read c.unplaced)) :
    ∀ entries : List (Node × Node), outcome a (readPairs path depth read entries)
      = outcome b (readPairs path depth read (Node.unplacedEntries entries))
  | [] => rfl
  | (key, value) :: rest => by
      have hkey := hread ⟨key, path, depth⟩
      have hvalue := hread ⟨value, valuePath path key, depth⟩
      simp only [Node.unplacedEntries, readPairs, outcome_bind, hkey, hvalue,
        outcome_readPairs hread rest, valuePath_unplaced]
      rfl

/-- The depth that is left is the same for the items and entries of a value. -/
lemma ignoresStarts_readWithin_of {depth : ℕ}
    (hinside : ∀ k, depth = k + 1 → IgnoresStarts (readWithin k)) :
    IgnoresStarts (readWithin depth) := by
  intro a c
  rw [readWithin, readWithin]
  refine IgnoresStarts.resolve (.placing (.unlessCustom (fun a c => ?_) _)) a c
  obtain ⟨node, path, _⟩ := c
  cases node with
  | scalar start tag style s => exact outcome_orFail _
  | «alias» => rfl
  | sequence start tag items =>
      cases depth with
      | zero => rfl
      | succ depth =>
          simp only [unplaced, Node.unplaced, outcome_bind, outcome_readItems (hinside _ rfl a)]
          rfl
  | mapping start tag entries =>
      cases depth with
      | zero => rfl
      | succ depth =>
          simp only [unplaced, Node.unplaced, outcome_bind, outcome_readPairs (hinside _ rfl a)]
          rfl

lemma ignoresStarts_readWithin : ∀ depth, IgnoresStarts (readWithin depth)
  | 0 => ignoresStarts_readWithin_of fun _ hk => absurd hk (by simp)
  | depth + 1 => ignoresStarts_readWithin_of fun k hk =>
      Nat.succ.inj hk ▸ ignoresStarts_readWithin depth

lemma ignoresStarts_read : IgnoresStarts read := fun a c => ignoresStarts_readWithin c.depth a c

end Buffered

end WorkerGen
