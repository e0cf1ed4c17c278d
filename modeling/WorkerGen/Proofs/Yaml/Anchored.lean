import Mathlib
import WorkerGen.Yaml.Node.Parser
import WorkerGen.Proofs.Data.Buffered
import WorkerGen.Proofs.Data.Exact

/-!
# What the aliases of a document stand for

While a document is read, an anchor is kept as the number of nodes that start before its node, and
an alias as the number of its anchor; which nodes these are is looked up at the end.  The invariant
that makes this right is `NodeReader.Knows`.  It does not speak of nodes, since none is complete
while the nodes in it are read, but of the targets of the nodes in the order in which they start.

Every function of the reader keeps it (`Leads`, a step for each function and the induction on the
fuel over all of them), so that in a whole document no anchored node is an alias
(`Document.isDirect_of_parse`) and every alias stands for a node of the document
(`Document.follow_of_parse`).

* `targets` — what is known of a node while it is read: for it and all nodes in it, the anchor that
  it refers to, if it is an alias.  A node that is complete has its targets in one piece, and they
  are put behind those of the nodes before it.
* `Leads` — from a state with one property a step gives a value and a state with another, or fails.
  It has the rules of the readers' monad and nothing else.
* `Reads` — a step that reads nodes: the state knows their targets afterwards, in addition to those
  that it knew.

The name of an anchor may be used again, and a number may come to belong to another node.  So the
place of a number changes while the document is read, and an alias stands for the node that its
number stands for in the end.  The invariant is about all numbers that are known at a moment, and it
does not matter to it which of them will be given away again.
-/

namespace WorkerGen.Yaml

/-! ## Targets

The nodes of a document are numbered as they start: a node first, and then those in it.  The list of
targets has the same order, so that a number is an index into it. -/

namespace Node

/-- The number of the anchor that a node refers to, if it is an alias. -/
def target? : Node → Option ℕ
  | .alias _ target => some target
  | _ => none

/-- The targets of a node and of all nodes in it, in the order in which they start. -/
def targets (node : Node) : List (Option ℕ) := node.subnodes.map target?

/-- The targets of the nodes in the items of a sequence. -/
def targetsOfItems (items : List Node) : List (Option ℕ) := (subnodesOfItems items).map target?

/-- The targets of the nodes in the entries of a mapping. -/
def targetsOfEntries (entries : List (Node × Node)) : List (Option ℕ) :=
  (subnodesOfEntries entries).map target?

variable {start target : ℕ} {tag : Option Tag}

lemma target?_eq_none_iff {node : Node} :
    node.target? = none ↔ ∀ start target, node ≠ .alias start target := by
  cases node <;> simp [target?]

@[simp]
lemma targets_scalar {style : Style} {text : String} :
    (scalar start tag style text).targets = [none] := rfl

@[simp]
lemma targets_empty : (empty start).targets = [none] := rfl

@[simp]
lemma targets_alias : (Node.alias start target).targets = [some target] := rfl

@[simp]
lemma targets_sequence {items : List Node} :
    (sequence start tag items).targets = none :: targetsOfItems items := rfl

@[simp]
lemma targets_mapping {entries : List (Node × Node)} :
    (mapping start tag entries).targets = none :: targetsOfEntries entries := rfl

@[simp]
lemma targetsOfItems_nil : targetsOfItems [] = [] := rfl

@[simp]
lemma targetsOfItems_cons {node : Node} {rest : List Node} :
    targetsOfItems (node :: rest) = node.targets ++ targetsOfItems rest := List.map_append

@[simp]
lemma targetsOfEntries_nil : targetsOfEntries [] = [] := rfl

@[simp]
lemma targetsOfEntries_cons {entry : Node × Node} {rest : List (Node × Node)} :
    targetsOfEntries (entry :: rest)
      = entry.1.targets ++ (entry.2.targets ++ targetsOfEntries rest) := by
  simp [targetsOfEntries, subnodesOfEntries, targets]

end Node

namespace NodeReader

/-! ## The invariant

Two steps change it, one for a node with an anchor and one for a node without.  An alias has no
anchor of its own. -/

/-- What the reader knows about the nodes that have started, given their targets: under the place
of an anchor starts a node that is no alias, and every number that is known or referred to has a
place. -/
structure Knows (targets : List (Option ℕ)) (r : NodeReader) : Prop where
  count : r.count = targets.length
  places : ∀ e ∈ r.places, targets[e.2]? = some none
  names : ∀ e ∈ r.names, ∃ p ∈ r.places, p.1 = e.2
  targets : ∀ n, some n ∈ targets → ∃ p ∈ r.places, p.1 = n

namespace Knows

variable {seen : List (Option ℕ)} {r : NodeReader}

lemma initial {tokens : List Token} {handles : List (String × List UInt8)} :
    Knows [] ⟨tokens, handles, [], [], 0⟩ :=
  ⟨rfl, by simp, by simp, by simp⟩

/-- The places of the nodes that have started stay when another one starts. -/
lemma places_append (h : Knows seen r) (target : Option ℕ) :
    ∀ e ∈ r.places, (seen ++ [target])[e.2]? = some none := fun e he => by
  rw [List.getElem?_append_left (List.getElem?_eq_some_iff.mp (h.places e he)).1, h.places e he]

/-- A node starts that has no anchor.  If it is an alias then its number has a place. -/
lemma unanchored (h : Knows seen r) {target : Option ℕ}
    (htarget : ∀ n, target = some n → ∃ p ∈ r.places, p.1 = n) :
    Knows (seen ++ [target]) { r with count := r.count + 1 } where
  count := by simp [h.count]
  places := h.places_append target
  names := h.names
  targets n hn := by
    rcases List.mem_append.mp hn with hn | hn
    · exact h.targets n hn
    · exact htarget n (List.mem_singleton.mp hn).symm

/-- A node starts that has an anchor.  It is no alias, and its place is the new one. -/
lemma anchored (h : Knows seen r) {number : ℕ} {names : List (String × ℕ)}
    (hnames : ∀ e ∈ names, e.2 = number ∨ e ∈ r.names) :
    Knows (seen ++ [none])
      { r with names := names, places := (number, r.count) :: r.places, count := r.count + 1 } where
  count := by simp [h.count]
  places := List.forall_mem_cons.mpr
    ⟨by rw [h.count, List.getElem?_concat_length], h.places_append none⟩
  names e he := by
    rcases hnames e he with hnew | hold
    · exact ⟨_, List.mem_cons_self, hnew.symm⟩
    · obtain ⟨p, hp, hnumber⟩ := h.names e hold
      exact ⟨p, List.mem_cons_of_mem _ hp, hnumber⟩
  targets n hn := by
    obtain ⟨p, hp, hnumber⟩ := h.targets n (by simpa using hn)
    exact ⟨p, List.mem_cons_of_mem _ hp, hnumber⟩

end Knows

/-! ## Leading from state to state

A step that fails leads anywhere, so that nothing has to be said of errors.  What a step peeks at is
a fact about the state only as long as nothing has been read. -/

variable {α β : Type}

/-- Whether a step, taken in a state with `P`, gives a value and a state with `Q` unless it
fails. -/
def Leads (P : NodeReader → Prop) (x : Step α) (Q : α → NodeReader → Prop) : Prop :=
  ∀ ⦃r v r'⦄, P r → x r = .ok (v, r') → Q v r'

namespace Leads

variable {P : NodeReader → Prop} {Q : α → NodeReader → Prop} {R : β → NodeReader → Prop}
  {x : Step α} {k : α → Step β} {v : α}

lemma bind (hx : Leads P x Q) (hk : ∀ v, Leads (Q v) (k v) R) : Leads P (x >>= k) R := by
  intro r w r' hP h
  obtain ⟨⟨v, s⟩, hv, h⟩ := except_bind_eq_ok.mp h
  exact hk v (hx hP hv) h

lemma pure (h : ∀ r, P r → Q v r) : Leads P (pure v) Q := by
  rintro r _ _ hP ⟨⟩
  exact h r hP

lemma throw {e : SyntaxFault} : Leads P (MonadExcept.throw e) Q := by
  rintro r _ _ hP ⟨⟩

lemma get : Leads P get fun s r => s = r ∧ P r := by
  rintro r _ _ hP ⟨⟩
  exact ⟨rfl, hP⟩

end Leads

/-! ## Steps that start at most one node

Most steps of the reader move over tokens and leave what is known of nodes alone. -/

section
variable {P : NodeReader → Prop} {seen : List (Option ℕ)}

lemma leads_peek : Leads P peek fun _ => P := by
  rw [peek]
  refine Leads.get.bind fun s => ?_
  split
  · exact .throw
  · exact .pure fun _ h => h.2

lemma leads_advance : Leads (Knows seen) advance fun _ => Knows seen := by
  rintro r _ _ h ⟨⟩
  exact ⟨h.count, h.places, h.names, h.targets⟩

lemma leads_properties (t : Token) :
    Leads (Knows seen) (properties t) fun _ => Knows seen := by
  rw [properties]
  split
  · refine leads_advance.bind fun _ => leads_peek.bind fun next => ?_
    split
    · exact leads_advance.bind fun _ => leads_peek.bind fun _ => .pure fun _ => id
    · exact .pure fun _ => id
  · refine leads_advance.bind fun _ => leads_peek.bind fun next => ?_
    split
    · exact leads_advance.bind fun _ => leads_peek.bind fun _ => .pure fun _ => id
    · exact .pure fun _ => id
  · exact .pure fun _ => id

lemma leads_fullTag : ∀ written : Option (String × List UInt8),
    Leads P (fullTag written) fun _ => P
  | none => .pure fun _ => id
  | some (handle, suffix) => by
      rw [fullTag]
      split
      · exact .pure fun _ => id
      · refine Leads.get.bind fun s => ?_
        split
        · exact .pure fun _ h => h.2
        · exact .throw

lemma leads_begin (anchor : Option String) :
    Leads (Knows seen) (begin anchor) fun _ => Knows (seen ++ [none]) := by
  rintro r _ _ h ⟨⟩
  cases anchor with
  | none => exact h.unanchored (by simp)
  | some name =>
      refine h.anchored fun e he => ?_
      split at he
      · obtain ⟨old, hold, rfl⟩ := List.mem_map.mp he
        split
        · exact .inl rfl
        · exact .inr hold
      · exact (List.mem_cons.mp he).imp (congrArg Prod.snd) id

/-- An alias starts with the number that is known for its name. -/
lemma leads_begin_alias {s : NodeReader} {name : String} {number : ℕ}
    (hnumber : s.names.lookup name = some number) :
    Leads (fun r => s = r ∧ Knows seen r) (begin none) fun _ => Knows (seen ++ [some number]) := by
  rintro _ _ _ ⟨rfl, h⟩ ⟨⟩
  refine h.unanchored fun n hn => ?_
  obtain ⟨before, after, hnames, -⟩ := List.lookup_eq_some_iff.mp hnumber
  rw [← Option.some.inj hn]
  exact h.names (name, number) (by simp [hnames])

end

/-! ## Nodes and what is in them

A sequence or mapping starts before the nodes in it, and is complete behind them.  Its lemma puts
its own target in front of theirs. -/

/-- Whether a step reads nodes with the given targets. -/
def Reads (x : Step α) (targets : α → List (Option ℕ)) : Prop :=
  ∀ seen, Leads (Knows seen) x fun v => Knows (seen ++ targets v)

lemma Reads.bind {x : Step α} {targets : α → List (Option ℕ)} {k : α → Step β}
    {R : β → NodeReader → Prop} {seen : List (Option ℕ)} (hx : Reads x targets)
    (hk : ∀ v, Leads (Knows (seen ++ targets v)) (k v) R) : Leads (Knows seen) (x >>= k) R :=
  Leads.bind (hx seen) hk

lemma Reads.behind {x : Step α} {targets : α → List (Option ℕ)} (h : Reads x targets) :
    Reads (advance >>= fun _ => x) targets := fun seen =>
  leads_advance.bind fun _ => h seen

lemma reads_emptyNode (start : ℕ) : Reads (emptyNode start) Node.targets := fun _ =>
  (leads_begin none).bind fun _ => .pure fun _ => id

section
variable {anchor : Option String} {start : ℕ} {tag : Option Tag}

lemma reads_missing : Reads (missing anchor tag start) Node.targets := by
  intro seen
  rw [missing]
  split
  · exact Leads.throw.bind fun _ => (leads_begin anchor).bind fun _ => .pure fun _ => id
  · exact (leads_begin anchor).bind fun _ => .pure fun _ => id

/-- A sequence starts before the nodes in it. -/
lemma reads_sequence {items : Step (List Node)} (h : Reads items Node.targetsOfItems) :
    Reads (begin anchor >>= fun _ => items >>= fun nodes => pure (Node.sequence start tag nodes))
      Node.targets := fun _ =>
  (leads_begin anchor).bind fun _ => h.bind fun _ => .pure fun _ h => by simpa using h

/-- A mapping starts before the nodes in it. -/
lemma reads_mapping {entries : Step (List (Node × Node))}
    (h : Reads entries Node.targetsOfEntries) :
    Reads (begin anchor >>= fun _ => entries >>= fun nodes => pure (Node.mapping start tag nodes))
      Node.targets := fun _ =>
  (leads_begin anchor).bind fun _ => h.bind fun _ => .pure fun _ h => by simpa using h

/-- An item stands before the rest of the items. -/
lemma Reads.item {items : Step (List Node)} (h : Reads items Node.targetsOfItems)
    {seen : List (Option ℕ)} (item : Node) :
    Leads (Knows (seen ++ item.targets)) (items >>= fun rest => pure (item :: rest)) fun nodes =>
      Knows (seen ++ Node.targetsOfItems nodes) :=
  h.bind fun _ => .pure fun _ h => by simpa using h

/-- An entry stands before the rest of the entries, and its key before its value. -/
lemma Reads.entry {entries : Step (List (Node × Node))} (h : Reads entries Node.targetsOfEntries)
    {seen : List (Option ℕ)} (key value : Node) :
    Leads (Knows (seen ++ key.targets ++ value.targets))
      (entries >>= fun rest => pure ((key, value) :: rest)) fun nodes =>
        Knows (seen ++ Node.targetsOfEntries nodes) :=
  h.bind fun _ => .pure fun _ h => by simpa using h

end

/-! The induction is on the fuel, over all readers at once.  Where the branches of a reader go on
alike, the part in which they meet has a lemma of its own before the branches are told apart. -/

mutual

lemma reads_node : ∀ (fuel : ℕ) (block indentless : Bool),
    Reads (node fuel block indentless) Node.targets
  | 0, _, _ => fun _ => by
      rw [node]
      exact .throw
  | fuel + 1, block, indentless => fun seen => by
      rw [node]
      refine leads_peek.bind fun first => ?_
      extract_lets start more
      have hmore : Leads (Knows seen) (more ()) fun node => Knows (seen ++ node.targets) := by
        refine (leads_properties first).bind fun found => ?_
        obtain ⟨anchor, written, t⟩ := found
        refine (leads_fullTag written).bind fun bytes => ?_
        extract_lets tag collection
        split
        · split
          · exact reads_sequence (reads_indentlessItems fuel) seen
          · exact reads_missing seen
        · exact (leads_begin anchor).bind fun _ => leads_advance.bind fun _ => .pure fun _ => id
        · exact reads_sequence (reads_flowItems fuel true).behind seen
        · exact reads_mapping (reads_flowEntries fuel true).behind seen
        · split
          · exact reads_sequence (reads_blockItems fuel).behind seen
          · exact reads_missing seen
        · split
          · exact reads_mapping (reads_blockEntries fuel).behind seen
          · exact reads_missing seen
        · exact reads_missing seen
      split
      · refine leads_advance.bind fun _ => Leads.get.bind fun r => ?_
        split
        · next hnumber =>
          exact (leads_begin_alias hnumber).bind fun _ => .pure fun _ => id
        · exact Leads.throw.bind fun _ => hmore
      · exact hmore

lemma reads_blockItems : ∀ fuel : ℕ, Reads (blockItems fuel) Node.targetsOfItems
  | 0 => fun _ => by
      rw [blockItems]
      exact .throw
  | fuel + 1 => fun seen => by
      rw [blockItems]
      refine leads_peek.bind fun t => ?_
      split
      · refine leads_advance.bind fun _ => leads_peek.bind fun next => ?_
        extract_lets more
        have hmore : ∀ item : Node, Leads (Knows (seen ++ item.targets)) (more item)
            fun nodes => Knows (seen ++ Node.targetsOfItems nodes) :=
          (reads_blockItems fuel).item
        split
        · exact (reads_emptyNode t.stop).bind hmore
        · exact (reads_emptyNode t.stop).bind hmore
        · exact (reads_node fuel true false).bind hmore
      · exact leads_advance.bind fun _ => .pure fun _ h => by simpa using h
      · exact .throw

lemma reads_indentlessItems : ∀ fuel : ℕ, Reads (indentlessItems fuel) Node.targetsOfItems
  | 0 => fun _ => by
      rw [indentlessItems]
      exact .throw
  | fuel + 1 => fun seen => by
      rw [indentlessItems]
      refine leads_peek.bind fun t => ?_
      split
      · refine leads_advance.bind fun _ => leads_peek.bind fun next => ?_
        extract_lets more
        have hmore : ∀ item : Node, Leads (Knows (seen ++ item.targets)) (more item)
            fun nodes => Knows (seen ++ Node.targetsOfItems nodes) :=
          (reads_indentlessItems fuel).item
        split
        · exact (reads_emptyNode t.stop).bind hmore
        · exact (reads_emptyNode t.stop).bind hmore
        · exact (reads_emptyNode t.stop).bind hmore
        · exact (reads_emptyNode t.stop).bind hmore
        · exact (reads_node fuel true false).bind hmore
      · exact .pure fun _ h => by simpa using h

lemma reads_blockPart : ∀ fuel stop : ℕ, Reads (blockPart fuel stop) Node.targets
  | 0, stop => fun seen => by
      rw [blockPart]
      refine leads_peek.bind fun t => ?_
      split
      · exact reads_emptyNode stop seen
      · exact reads_emptyNode stop seen
      · exact reads_emptyNode stop seen
      · exact .throw
  | fuel + 1, stop => fun seen => by
      rw [blockPart]
      refine leads_peek.bind fun t => ?_
      split
      · exact reads_emptyNode stop seen
      · exact reads_emptyNode stop seen
      · exact reads_emptyNode stop seen
      · exact reads_node fuel true true seen

lemma reads_blockEntries : ∀ fuel : ℕ, Reads (blockEntries fuel) Node.targetsOfEntries
  | 0 => fun _ => by
      rw [blockEntries]
      exact .throw
  | fuel + 1 => fun seen => by
      rw [blockEntries]
      refine leads_peek.bind fun t => ?_
      split
      · refine leads_advance.bind fun _ => (reads_blockPart fuel t.stop).bind fun key =>
          leads_peek.bind fun t => ?_
        extract_lets more
        have hmore : ∀ value : Node, Leads (Knows (seen ++ key.targets ++ value.targets))
            (more value) fun entries => Knows (seen ++ Node.targetsOfEntries entries) :=
          (reads_blockEntries fuel).entry key
        split
        · exact leads_advance.bind fun _ => (reads_blockPart fuel t.stop).bind hmore
        · exact (reads_emptyNode t.start).bind hmore
      · exact leads_advance.bind fun _ => .pure fun _ h => by simpa using h
      · exact .throw

lemma reads_flowItems : ∀ (fuel : ℕ) (first : Bool),
    Reads (flowItems fuel first) Node.targetsOfItems
  | 0, _ => fun _ => by
      rw [flowItems]
      exact .throw
  | fuel + 1, first => fun seen => by
      rw [flowItems]
      refine leads_peek.bind fun t => ?_
      extract_lets more
      have hmore : ∀ t, Leads (Knows seen) (more t) fun nodes =>
          Knows (seen ++ Node.targetsOfItems nodes) := fun t => by
        simp only [more]
        split
        · exact leads_advance.bind fun _ => .pure fun _ h => by simpa using h
        · exact (leads_begin none).bind fun _ => leads_advance.bind fun _ =>
            (reads_flowPair fuel).bind fun pair => (reads_flowItems fuel false).bind fun rest =>
              .pure fun _ h => by simpa using h
        · exact (reads_node fuel false false).bind (reads_flowItems fuel false).item
      split
      · exact leads_advance.bind fun _ => .pure fun _ h => by simpa using h
      · split
        · exact hmore t
        · split
          · exact leads_advance.bind fun _ => leads_peek.bind hmore
          · exact Leads.throw.bind hmore

lemma reads_flowPair : ∀ fuel : ℕ,
    Reads (flowPair fuel) fun pair => pair.1.targets ++ pair.2.targets
  | 0 => fun _ => by
      rw [flowPair]
      exact .throw
  | fuel + 1 => fun seen => by
      rw [flowPair]
      refine leads_peek.bind fun t => ?_
      extract_lets more
      have hmore : ∀ key : Node, Leads (Knows (seen ++ key.targets)) (more key)
          fun pair => Knows (seen ++ (pair.1.targets ++ pair.2.targets)) := fun key => by
        refine leads_peek.bind fun t => ?_
        extract_lets last
        have hlast : ∀ value : Node, Leads (Knows (seen ++ key.targets ++ value.targets))
            (last value) fun pair => Knows (seen ++ (pair.1.targets ++ pair.2.targets)) :=
          fun value => .pure fun _ h => by simpa using h
        split
        · refine leads_advance.bind fun _ => leads_peek.bind fun t => ?_
          split
          · exact (reads_emptyNode t.start).bind hlast
          · exact (reads_emptyNode t.start).bind hlast
          · exact (reads_node fuel false false).bind hlast
        · exact (reads_emptyNode t.start).bind hlast
      split
      · exact leads_advance.bind fun _ => (reads_emptyNode t.stop).bind hmore
      · exact leads_advance.bind fun _ => (reads_emptyNode t.stop).bind hmore
      · exact leads_advance.bind fun _ => (reads_emptyNode t.stop).bind hmore
      · exact (reads_node fuel false false).bind hmore

lemma reads_flowEntries : ∀ (fuel : ℕ) (first : Bool),
    Reads (flowEntries fuel first) Node.targetsOfEntries
  | 0, _ => fun _ => by
      rw [flowEntries]
      exact .throw
  | fuel + 1, first => fun seen => by
      rw [flowEntries]
      refine leads_peek.bind fun t => ?_
      extract_lets afterKey more
      have hafterKey : ∀ key : Node, Leads (Knows (seen ++ key.targets)) (afterKey key)
          fun entries => Knows (seen ++ Node.targetsOfEntries entries) := fun key => by
        refine leads_peek.bind fun t => ?_
        extract_lets last
        have hlast : ∀ value : Node, Leads (Knows (seen ++ key.targets ++ value.targets))
            (last value) fun entries => Knows (seen ++ Node.targetsOfEntries entries) :=
          (reads_flowEntries fuel false).entry key
        split
        · refine leads_advance.bind fun _ => leads_peek.bind fun t => ?_
          split
          · exact (reads_emptyNode t.start).bind hlast
          · exact (reads_emptyNode t.start).bind hlast
          · exact (reads_node fuel false false).bind hlast
        · exact (reads_emptyNode t.start).bind hlast
      have hmore : ∀ t, Leads (Knows seen) (more t) fun entries =>
          Knows (seen ++ Node.targetsOfEntries entries) := fun t => by
        simp only [more]
        split
        · exact leads_advance.bind fun _ => .pure fun _ h => by simpa using h
        · refine leads_advance.bind fun _ => leads_peek.bind fun t => ?_
          split
          · exact (reads_emptyNode t.start).bind hafterKey
          · exact (reads_emptyNode t.start).bind hafterKey
          · exact (reads_emptyNode t.start).bind hafterKey
          · exact (reads_node fuel false false).bind hafterKey
        · exact (reads_node fuel false false).bind fun key => leads_peek.bind fun t =>
            (reads_emptyNode t.start).bind ((reads_flowEntries fuel false).entry key)
      split
      · exact leads_advance.bind fun _ => .pure fun _ h => by simpa using h
      · split
        · exact hmore t
        · split
          · exact leads_advance.bind fun _ => leads_peek.bind hmore
          · exact Leads.throw.bind hmore

end

/-! ## Documents

When the root is complete, the targets that are known are those of the document, and the places of
anchors are looked up among its nodes. -/

section
variable {seen : List (Option ℕ)}

lemma leads_directives : ∀ (fuel : ℕ) (versioned : Bool) (handles : List (String × List UInt8)),
    Leads (Knows seen) (directives fuel versioned handles) fun _ => Knows seen
  | 0, _, _ => by
      rw [directives]
      exact .throw
  | fuel + 1, versioned, handles => by
      rw [directives]
      refine leads_peek.bind fun t => ?_
      split
      · split
        · exact Leads.throw.bind fun _ => leads_advance.bind fun _ =>
            leads_directives fuel true handles
        · exact leads_advance.bind fun _ => leads_directives fuel true handles
      · next handle start _ =>
        split
        · exact Leads.throw.bind fun _ => leads_advance.bind fun _ =>
            leads_directives fuel versioned ((handle, start) :: handles)
        · exact leads_advance.bind fun _ =>
            leads_directives fuel versioned ((handle, start) :: handles)
      · exact .pure fun _ => id

lemma leads_handles {handles : List (String × List UInt8)} :
    Leads (Knows seen) (modify fun r => { r with handles := handles }) fun _ => Knows seen := by
  rintro r _ _ h ⟨⟩
  exact ⟨h.count, h.places, h.names, h.targets⟩

lemma leads_finish : ∀ fuel : ℕ, Leads (Knows seen) (finish fuel) fun _ => Knows seen
  | 0 => by
      rw [finish]
      exact .throw
  | fuel + 1 => by
      rw [finish]
      refine leads_peek.bind fun t => ?_
      split
      · exact leads_advance.bind fun _ => leads_finish fuel
      · exact .pure fun _ => id
      · exact .throw

end

lemma reads_document (fuel : ℕ) :
    Reads (document fuel) fun root => (root.map Node.targets).getD [] := fun seen => by
  have hnode : Leads (Knows seen) (node fuel true false >>= fun root => pure (some root))
      fun root => Knows (seen ++ (root.map Node.targets).getD []) :=
    (reads_node fuel true false).bind fun root => .pure fun _ => id
  have hempty : ∀ start, Leads (Knows seen) (emptyNode start >>= fun root => pure (some root))
      fun root => Knows (seen ++ (root.map Node.targets).getD []) := fun start =>
    (reads_emptyNode start).bind fun root => .pure fun _ => id
  rw [document]
  refine leads_peek.bind fun t => ?_
  split
  case h_1 => exact .pure fun _ h => by simpa using h
  case h_5 => exact hnode
  -- what is left are the tokens that a document begins with, a case for each
  all_goals
    refine (leads_directives fuel false []).bind fun handles => leads_handles.bind fun _ =>
      leads_peek.bind fun t => ?_
    extract_lets more
    have hmore : Leads (Knows seen) (more ()) fun root =>
        Knows (seen ++ (root.map Node.targets).getD []) := by
      refine leads_advance.bind fun _ => leads_peek.bind fun t => ?_
      split <;> first | exact hempty t.start | exact hnode
    split
    · exact Leads.throw.bind fun _ => hmore
    · exact hmore

end NodeReader

namespace Document

/-- All nodes of a document, in the order in which they start. -/
def nodes (d : Document) : List Node := (d.root.map Node.subnodes).getD []

variable {text : String} {d : Document}

/-- A parsed document is what the reader knows of it at the end. -/
lemma exists_knows_of_parse (h : parse text = .ok d) :
    ∃ r : NodeReader, r.Knows (d.nodes.map Node.target?) ∧
      d.anchored = r.places.filterMap fun e => d.nodes[e.2]?.map (e.1, ·) := by
  rw [parse] at h
  obtain ⟨tokens, -, h⟩ := except_bind_eq_ok.mp h
  obtain ⟨⟨root, r⟩, hread, h⟩ := except_bind_eq_ok.mp h
  obtain rfl := Except.ok.inj h
  have hleads : NodeReader.Leads (NodeReader.Knows []) _ fun root : Option Node =>
      NodeReader.Knows ((root.map Node.targets).getD []) :=
    (NodeReader.reads_document (4 * tokens.length + 8)).bind fun root =>
      (NodeReader.leads_finish (4 * tokens.length + 8)).bind fun _ => .pure fun _ => id
  have hknows := hleads .initial hread
  refine ⟨r, ?_, rfl⟩
  cases root with
  | none => exact hknows
  | some root => exact hknows

/-- **What is anchored in a parsed document** is a node of it and no alias. -/
theorem anchored_of_parse (h : parse text = .ok d) :
    ∀ e ∈ d.anchored, e.2 ∈ d.nodes ∧ e.2.target? = none := by
  obtain ⟨r, hknows, hanchored⟩ := exists_knows_of_parse h
  intro e he
  rw [hanchored, List.mem_filterMap] at he
  obtain ⟨place, hplace, he⟩ := he
  obtain ⟨node, hnode, rfl⟩ := Option.map_eq_some_iff.mp he
  refine ⟨List.mem_of_getElem? hnode, ?_⟩
  have htarget := hknows.places place hplace
  rw [List.getElem?_map, hnode] at htarget
  exact Option.some.inj htarget

/-- No alias of a parsed document dangles. -/
lemma exists_lookup_of_parse (h : parse text = .ok d) {start target : ℕ}
    (halias : .alias start target ∈ d.nodes) : ∃ node, d.anchored.lookup target = some node := by
  obtain ⟨r, hknows, hanchored⟩ := exists_knows_of_parse h
  obtain ⟨place, hplace, rfl⟩ := hknows.targets target (List.mem_map.mpr ⟨_, halias, rfl⟩)
  have htarget := hknows.places place hplace
  rw [List.getElem?_map, Option.map_eq_some_iff] at htarget
  obtain ⟨node, hnode, -⟩ := htarget
  have hmem : (place.1, node) ∈ d.anchored := by
    rw [hanchored, List.mem_filterMap]
    exact ⟨place, hplace, by rw [hnode, Option.map_some]⟩
  rw [← Option.ne_none_iff_exists']
  intro hnone
  simpa using List.lookup_eq_none_iff.mp hnone _ hmem

/-- **What a node of a parsed document stands for** is a node of it, and no alias. -/
theorem follow_of_parse (h : parse text = .ok d) (limit : ℕ) {node : Node}
    (hnode : node ∈ d.nodes) :
    Anchors.follow ⟨d.anchored, limit⟩ node ∈ d.nodes ∧
      (Anchors.follow ⟨d.anchored, limit⟩ node).target? = none := by
  cases node with
  | «alias» start target =>
      obtain ⟨node, hlookup⟩ := exists_lookup_of_parse h hnode
      obtain ⟨before, after, hanchored, -⟩ := List.lookup_eq_some_iff.mp hlookup
      rw [Anchors.follow, hlookup, Option.getD_some]
      exact anchored_of_parse h (target, node) (by simp [hanchored])
  | _ => exact ⟨hnode, rfl⟩

/-- **No alias of a parsed document refers to another one.** -/
theorem isDirect_of_parse (h : parse text = .ok d) (limit : ℕ) :
    Anchors.IsDirect ⟨d.anchored, limit⟩ :=
  Anchors.isDirect_of_forall fun e he =>
    Node.target?_eq_none_iff.mp (anchored_of_parse h e he).2

end Document

end WorkerGen.Yaml
