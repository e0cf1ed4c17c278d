import Mathlib
import WorkerGen.Proofs.Data.Reading

/-!
# What is read, exactly

A reading follows some aliases on its way, and gives a value unless these are too many in the
document.  `Gives` says so exactly: which values a reading gives, and the number of aliases that it
follows.  It is kept by everything that readers are made of, and for a bind the numbers are added
(`Gives.bind`).  With it the reader of a record is turned, field by field, into a statement that is
an equivalence and mentions no reader.

How many aliases are followed does not depend on what is read.  `Anchors.aliases` counts them from
the node alone: an alias where a node stands, and all that are met within it.  That each of them is
counted once relies on no alias referring to another one (`Anchors.IsDirect`), which a document that
is read never does.

**Buffered values.**  What a node holds is `Anchors.Holds`, a relation that follows the node and not
the reader; it is what is buffered (`Buffered.gives_read`).  It has a case for each kind of node.  A
node with a tag of an application holds nothing, and neither does one that nests deeper than is
allowed.
-/

namespace WorkerGen

open List (Forall₂)
open Yaml (Node)

/-! ## Counted aliases

The bound is on all aliases of a document together, so a reading must say how many it uses.  A
reading that always fails uses any number (`Gives.of_false`), which lets the cases of a reader be
brought to one number. -/

/-- The number of aliases at a node itself. -/
def Yaml.Node.ownAliases : Node → ℕ
  | .alias .. => 1
  | _ => 0

/-- How many aliases are followed where a node is read with all that is in it, inside `depth`
collections. -/
def Anchors.aliases (a : Anchors) : (depth : ℕ) → Node → ℕ
  | 0, node => node.ownAliases
  | depth + 1, node => node.ownAliases +
    match a.follow node with
    | .sequence _ _ items => (items.map (a.aliases depth)).sum
    | .mapping _ _ entries =>
      (entries.map fun e => a.aliases depth e.1 + a.aliases depth e.2).sum
    | _ => 0

/-- Whether no alias refers to another one. -/
def Anchors.IsDirect (a : Anchors) : Prop := ∀ node, a.follow (a.follow node) = a.follow node

lemma Anchors.follow_of_not_alias {a : Anchors} {node : Node} (h : ∀ s t, node ≠ .alias s t) :
    a.follow node = node := by
  cases node with
  | «alias» s t => exact absurd rfl (h s t)
  | _ => rfl

lemma Anchors.isDirect_of_forall {a : Anchors} (h : ∀ e ∈ a.nodes, ∀ s t, e.2 ≠ .alias s t) :
    a.IsDirect := by
  intro node
  cases node with
  | «alias» start target =>
      rw [follow]
      cases hlookup : a.nodes.lookup target with
      | none => simp only [Option.getD_none, follow, hlookup]
      | some node =>
          obtain ⟨before, after, hnodes, -⟩ := List.lookup_eq_some_iff.mp hlookup
          exact follow_of_not_alias (h (target, node) (by simp [hnodes]))
  | _ => rfl

namespace Reader

/-! ### Readings that give exactly some values

For a reading that follows no alias there need not be room for one, even where more than are allowed
have been followed before. -/

/-- Whether a reading gives exactly the values with a property, and follows `k` aliases to do so,
for which there has to be room. -/
def Gives {α : Type} (a : Anchors) (x : Reader α) (P : α → Prop) (k : ℕ) : Prop :=
  ∀ ⦃n m v⦄, x a n = .ok (v, m) ↔ P v ∧ m = n + k ∧ (k = 0 ∨ n + k ≤ a.limit)

namespace Gives

variable {α β : Type} {a : Anchors} {x : Reader α} {P P' : α → Prop} {Q : β → Prop} {k l : ℕ}

lemma congr (h : Gives a x P k) (hP : ∀ v, P' v ↔ P v) : Gives a x P' k := by
  intro n m v
  rw [hP, h]

lemma throw {e : DataError} (hP : ∀ v, ¬P v) : Gives a (MonadExcept.throw e) P k :=
  fun _ _ _ => iff_of_false throw_ne_ok fun hv => hP _ hv.1

lemma failWith {cause : Cause} (hP : ∀ v, ¬P v) : Gives a (WorkerGen.failWith cause) P k :=
  throw hP

/-- A reading that always fails may be said to follow any number of aliases. -/
lemma of_false (h : Gives a x (fun _ => False) k) (hP : ∀ v, ¬P v) : Gives a x P l :=
  fun _ _ _ => iff_of_false (fun hx => (h.mp hx).1) fun hv => hP _ hv.1

lemma pure (w : α) : Gives a (Pure.pure w) (· = w) 0 := by
  intro n m v
  rw [pure_eq_ok]
  simp [eq_comm]

lemma bind {f : α → Reader β} {R : α → β → Prop} (h : Gives a x P k)
    (hf : ∀ v, P v → Gives a (f v) (R v) l) :
    Gives a (x >>= f) (fun w => ∃ v, P v ∧ R v w) (k + l) := by
  intro n m w
  rw [bind_eq_ok]
  constructor
  · rintro ⟨v, i, hx, hrest⟩
    obtain ⟨hv, rfl, hroom⟩ := h.mp hx
    obtain ⟨hw, hm, hroom'⟩ := (hf v hv).mp hrest
    exact ⟨⟨v, hv, hw⟩, by omega, by omega⟩
  · rintro ⟨⟨v, hv, hw⟩, hm, hroom⟩
    exact ⟨v, n + k, h.mpr ⟨hv, rfl, by omega⟩, (hf v hv).mpr ⟨hw, by omega, by omega⟩⟩

/-- What is read with the only value of a reading is given. -/
lemma bind_of_eq {w : α} {f : α → Reader β} (h : Gives a x (· = w) k) (hf : Gives a (f w) Q l) :
    Gives a (x >>= f) Q (k + l) :=
  (h.bind (R := fun _ => Q) fun v hv => hv ▸ hf).congr fun u => by simp

lemma map {f : α → β} (h : Gives a x P k) :
    Gives a (x >>= fun v => Pure.pure (f v)) (fun w => ∃ v, P v ∧ w = f v) k :=
  h.bind fun v _ => pure (f v)

lemma placing {c : Cursor} (h : Gives a x P k) : Gives a (c.placing x) P k := by
  intro n m v
  rw [placing_eq_ok, h]

lemma orFail (r : Except Cause α) : Gives a (Cursor.orFail r) (fun v => r = .ok v) 0 := by
  intro n m v
  rw [orFail_eq_ok_iff]
  simp [eq_comm]

end Gives

end Reader

/-- Where a scalar stands behind a node, only the alias of the node itself is followed. -/
lemma Anchors.aliases_of_scalar {a : Anchors} {depth start : ℕ} {node : Node}
    {tag : Option Yaml.Tag} {style : Yaml.Style} {s : String}
    (h : a.follow node = .scalar start tag style s) : a.aliases depth node = node.ownAliases := by
  cases depth with
  | zero => rfl
  | succ depth => simp only [Anchors.aliases, h, Nat.add_zero]

/-- Whether nothing is written at a node that may be null: it is empty, or a word for null. -/
def Yaml.Node.IsNothing : Node → Prop
  | .scalar _ tag style s => style = .plain ∧
    (tag = none ∧ s.isEmpty = true ∨
      (tag = none ∨ tag = some .null) ∧ Yaml.Meaning.isNullWord s.toList = true)
  | _ => False

/-- Whether a node is a text, or nothing.  By its tag no other word is null. -/
def Yaml.Node.IsTextOrNull (node : Node) (o : Option String) : Prop :=
  node.IsNothing ∧ o = none ∨ ¬node.IsNothing ∧
    ∃ start tag style s, node = .scalar start tag style s ∧
      ¬(style = .plain ∧ tag = some .null) ∧ o = some s

section
variable {node : Node} {start : ℕ} {tag : Option Yaml.Tag} {style : Yaml.Style} {s : String}
  {o : Option String}

lemma Yaml.Node.isTextOrNull_of_nothing (h : node.IsNothing) : node.IsTextOrNull o ↔ o = none := by
  simp [IsTextOrNull, h]

lemma Yaml.Node.isTextOrNull_of_text (h : ¬(Node.scalar start tag style s).IsNothing)
    (hnull : ¬(style = .plain ∧ tag = some .null)) :
    (Node.scalar start tag style s).IsTextOrNull o ↔ o = some s := by
  rw [IsTextOrNull, or_iff_right fun hnothing => h hnothing.1]
  constructor
  · rintro ⟨-, _, _, _, _, heq, -, rfl⟩
    rw [(Node.scalar.inj heq).2.2.2]
  · rintro rfl
    exact ⟨h, _, _, _, _, rfl, hnull, rfl⟩

lemma Yaml.Node.not_isTextOrNull (h : ∀ start tag style s, node ≠ .scalar start tag style s) :
    ¬node.IsTextOrNull o := by
  cases node with
  | scalar => exact absurd rfl (h _ _ _ _)
  | _ => simp [IsTextOrNull, IsNothing]

end

namespace Cursor

open Reader

variable {α : Type} {a : Anchors} {c : Cursor} {depth : ℕ}

/-! ## Nodes

What is read of a node is read of what stands behind it, and the alias is counted before that. -/

lemma gives_resolve : Gives a c.resolve (· = ⟨a.follow c.node, c.path, c.depth⟩)
    c.node.ownAliases := by
  obtain ⟨node, path, depth⟩ := c
  cases node with
  | «alias» start target =>
      intro n m d
      have hone : (Node.alias start target).ownAliases = 1 := rfl
      rw [resolve_alias, hone]
      split_ifs with hlimit
      · refine iff_of_false (by simp) ?_
        rintro ⟨-, -, hzero | hroom⟩
        · exact absurd hzero (by simp)
        · omega
      · have hroom : n + 1 ≤ a.limit := by omega
        simp [hroom, eq_comm]
  | scalar => exact .pure _
  | sequence => exact .pure _
  | mapping => exact .pure _

/-- What is read of the node behind, unless that has a tag of an application. -/
lemma gives_unlessCustom {read : Cursor → Reader α} {cause : Cause} {node : Node} {P Q : α → Prop}
    {k : ℕ} (hbehind : a.follow c.node = node) (hread : Gives a (read ⟨node, c.path, c.depth⟩) P k)
    (hgives : ∀ v, Q v ↔ isCustom node = false ∧ P v) :
    Gives a
      (c.resolve >>= fun c => c.placing (if isCustom c.node then failWith cause else read c)) Q
      (c.node.ownAliases + k) := by
  refine gives_resolve.bind_of_eq (Gives.placing ?_)
  dsimp only
  rw [hbehind]
  split_ifs with hcustom
  · exact .failWith fun v => by simp [hgives, hcustom]
  · exact hread.congr fun v => by simp [hgives, hcustom]

lemma gives_text (expected : String) : Gives a (text expected c)
    (fun s => ∃ start tag style, a.follow c.node = .scalar start tag style s)
    (a.aliases depth c.node) := by
  cases hbehind : a.follow c.node with
  | scalar start tag style s =>
      rw [Anchors.aliases_of_scalar hbehind]
      refine (gives_resolve.bind_of_eq (l := 0) (Q := (· = s)) ?_).congr fun t => by simp [eq_comm]
      rw [hbehind]
      exact (Gives.pure s).placing
  | _ =>
      refine (gives_resolve.bind_of_eq (l := 0) (Q := fun _ => False) ?_).of_false (by simp)
      rw [hbehind]
      exact (Gives.failWith (by simp)).placing

lemma gives_optional_text (hdirect : a.IsDirect) (expected : String) :
    Gives a (optional (text expected) c) (a.follow c.node).IsTextOrNull
      (a.aliases depth c.node) := by
  have hread : Gives a (some <$> text expected ⟨a.follow c.node, c.path, c.depth⟩)
      (fun o => ∃ s, (∃ start tag style, a.follow c.node = .scalar start tag style s) ∧ o = some s)
      (a.follow c.node).ownAliases := by
    have htext : Gives a (text expected ⟨a.follow c.node, c.path, c.depth⟩)
        (fun s => ∃ start tag style, a.follow (a.follow c.node) = .scalar start tag style s)
        (a.aliases 0 (a.follow c.node)) := gives_text expected
    rw [hdirect c.node] at htext
    exact htext.map
  suffices h : Gives a (optional (text expected) c) (a.follow c.node).IsTextOrNull
      (c.node.ownAliases + 0) by
    cases hbehind : a.follow c.node with
    | scalar start tag style s => rwa [Anchors.aliases_of_scalar hbehind, ← hbehind]
    | _ =>
        rw [hbehind] at h
        exact (h.congr fun o => iff_of_false id (Node.not_isTextOrNull (by simp))).of_false
          fun o => Node.not_isTextOrNull (by simp)
  refine gives_resolve.bind_of_eq ?_
  generalize a.follow c.node = node at hread ⊢
  have hscalar : ∀ {start tag style s}, node = .scalar start tag style s → Gives a
      (some <$> text expected ⟨node, c.path, c.depth⟩) (· = some s) 0 := by
    rintro start tag style s rfl
    exact hread.congr fun o => by simp
  dsimp only
  split
  · next start tag s =>
    split
    · split_ifs with hword
      · have hnothing : (Node.scalar start (some .null) .plain s).IsNothing := by
          simp [Node.IsNothing, hword]
        exact (Gives.pure none).congr fun o => Node.isTextOrNull_of_nothing hnothing
      · exact .failWith (by simp [Node.IsTextOrNull, Node.IsNothing, hword])
    · next t hnull =>
      have htext : ¬(Node.scalar start (some t) .plain s).IsNothing := by
        simpa [Node.IsNothing] using fun h => absurd h hnull
      exact (hscalar rfl).congr fun o => Node.isTextOrNull_of_text htext (by simpa using hnull)
    · split_ifs with hword
      · have hnothing : (Node.scalar start none .plain s).IsNothing := by
          simpa [Node.IsNothing] using hword
        exact (Gives.pure none).congr fun o => Node.isTextOrNull_of_nothing hnothing
      · have htext : ¬(Node.scalar start none .plain s).IsNothing := by
          simpa [Node.IsNothing] using hword
        exact (hscalar rfl).congr fun o => Node.isTextOrNull_of_text htext (by simp)
  · next hplain =>
    cases node with
    | scalar start tag style s =>
        have hstyle : style ≠ .plain := fun h => hplain start tag s (by rw [h])
        have htext : ¬(Node.scalar start tag style s).IsNothing := fun h => hstyle h.1
        exact (hscalar rfl).congr fun o => Node.isTextOrNull_of_text htext fun h => hstyle h.1
    | _ =>
        exact (hread.congr fun o => iff_of_false id (by simp)).of_false
          fun o => Node.not_isTextOrNull (by simp)

/-! ## Collections

The items of a sequence are read one by one.  What is given is a list of the same length, each item
being given alone, and the numbers of aliases are summed. -/

lemma gives_readItems {read : Cursor → Reader α} {P : Node → α → Prop} {count : Node → ℕ}
    {path : DataPath}
    (hread : ∀ node path, Gives a (read ⟨node, path, depth⟩) (P node) (count node)) :
    ∀ (nodes : List Node) {index : ℕ}, Gives a (readItems path depth read index nodes)
      (Forall₂ P nodes) (nodes.map count).sum
  | [], _ => (Gives.pure []).congr fun v => by simp
  | node :: rest, index => by
      rw [readItems]
      refine ((hread node (path.item index)).bind fun v _ =>
        (gives_readItems hread rest).map).congr fun vs => ?_
      simp [List.forall₂_cons_left_iff]

end Cursor

/-! ## Buffered values

The induction is on the depth that is left, and for one depth on the items or entries of a
collection. -/

/-- Whether a node holds a value, with all that is in it inside `depth` collections. -/
inductive Anchors.Holds (a : Anchors) : (depth : ℕ) → Node → Buffered → Prop
  | scalar {depth start : ℕ} {node : Node} {tag : Option Yaml.Tag} {style : Yaml.Style} {s : String}
      {meaning : Yaml.Meaning} {b : Buffered} (behind : a.follow node = .scalar start tag style s)
      (known : tag ≠ some .custom) (means : Cursor.scalarMeaning tag style s = .ok meaning)
      (narrow : Buffered.ofMeaning meaning = .ok b) : Holds a depth node b
  /-- An alias that refers to nothing is null. -/
  | unbound {depth start target : ℕ} {node : Node} (behind : a.follow node = .alias start target) :
      Holds a depth node .null
  | sequence {depth start : ℕ} {node : Node} {tag : Option Yaml.Tag} {items : List Node}
      {bs : List Buffered} (behind : a.follow node = .sequence start tag items)
      (known : tag ≠ some .custom) (length : items.length = bs.length)
      (each : ∀ e ∈ items.zip bs, Holds a depth e.1 e.2) : Holds a (depth + 1) node (.sequence bs)
  | mapping {depth start : ℕ} {node : Node} {tag : Option Yaml.Tag} {entries : List (Node × Node)}
      {ps : List (Buffered × Buffered)} (behind : a.follow node = .mapping start tag entries)
      (known : tag ≠ some .custom) (length : entries.length = ps.length)
      (keys : ∀ e ∈ entries.zip ps, Holds a depth e.1.1 e.2.1)
      (values : ∀ e ∈ entries.zip ps, Holds a depth e.1.2 e.2.2) :
      Holds a (depth + 1) node (.map ps)

namespace Anchors

variable {a : Anchors} {depth start : ℕ} {node : Node} {tag : Option Yaml.Tag} {b : Buffered}

lemma holds_iff_of_scalar {style : Yaml.Style} {s : String}
    (hbehind : a.follow node = .scalar start tag style s) : a.Holds depth node b ↔
      tag ≠ some .custom ∧ (Cursor.scalarMeaning tag style s).bind Buffered.ofMeaning = .ok b := by
  constructor
  · intro h
    cases h <;> simp_all [Except.bind]
  · rintro ⟨hknown, h⟩
    cases hmeans : Cursor.scalarMeaning tag style s with
    | error cause =>
        rw [hmeans] at h
        exact absurd h (by simp [Except.bind])
    | ok meaning =>
        rw [hmeans] at h
        exact .scalar hbehind hknown hmeans h

lemma holds_iff_of_alias {target : ℕ} (hbehind : a.follow node = .alias start target) :
    a.Holds depth node b ↔ b = .null := by
  constructor
  · intro h
    cases h <;> simp_all
  · rintro rfl
    exact .unbound hbehind

lemma holds_iff_of_sequence {items : List Node}
    (hbehind : a.follow node = .sequence start tag items) :
    a.Holds depth node b ↔ tag ≠ some .custom ∧
      ∃ inside bs, depth = inside + 1 ∧ Forall₂ (a.Holds inside) items bs ∧ b = .sequence bs := by
  simp only [List.forall₂_iff_zip]
  constructor
  · intro h
    cases h with
    | sequence behind known length each =>
        obtain ⟨rfl, rfl, rfl⟩ := Node.sequence.inj (hbehind.symm.trans behind)
        exact ⟨known, _, _, rfl, ⟨length, each _⟩, rfl⟩
    | _ => simp_all
  · rintro ⟨hknown, inside, bs, rfl, ⟨hlength, heach⟩, rfl⟩
    exact .sequence hbehind hknown hlength fun e he => heach he

lemma holds_iff_of_mapping {entries : List (Node × Node)}
    (hbehind : a.follow node = .mapping start tag entries) :
    a.Holds depth node b ↔ tag ≠ some .custom ∧ ∃ inside ps, depth = inside + 1 ∧
      Forall₂ (fun e p => a.Holds inside e.1 p.1 ∧ a.Holds inside e.2 p.2) entries ps ∧
        b = .map ps := by
  simp only [List.forall₂_iff_zip]
  constructor
  · intro h
    cases h with
    | mapping behind known length keys values =>
        obtain ⟨rfl, rfl, rfl⟩ := Node.mapping.inj (hbehind.symm.trans behind)
        exact ⟨known, _, _, rfl, ⟨length, fun he => ⟨keys _ he, values _ he⟩⟩, rfl⟩
    | _ => simp_all
  · rintro ⟨hknown, inside, ps, rfl, ⟨hlength, heach⟩, rfl⟩
    exact .mapping hbehind hknown hlength (fun e he => (heach he).1) fun e he => (heach he).2

end Anchors

namespace Buffered

open Reader

variable {a : Anchors} {c : Cursor} {depth : ℕ}

lemma gives_readPairs {read : Cursor → Reader Buffered} {P : Node → Buffered → Prop}
    {count : Node → ℕ} {path : DataPath}
    (hread : ∀ node path, Gives a (read ⟨node, path, depth⟩) (P node) (count node)) :
    ∀ entries : List (Node × Node), Gives a (readPairs path depth read entries)
      (Forall₂ (fun e p => P e.1 p.1 ∧ P e.2 p.2) entries)
      (entries.map fun e => count e.1 + count e.2).sum
  | [] => (Gives.pure []).congr fun v => by simp
  | (key, value) :: rest => by
      rw [readPairs, List.map_cons, List.sum_cons, Nat.add_assoc]
      refine ((hread key path).bind fun k _ => (hread value _).bind fun v _ =>
        (gives_readPairs hread rest).map).congr fun ps => ?_
      simp only [List.forall₂_cons_left_iff, Prod.exists]
      grind

lemma gives_readWithin_of (hinside : ∀ ⦃k⦄, depth = k + 1 → ∀ c, Gives a (readWithin k c)
      (a.Holds k c.node) (a.aliases k c.node)) :
    Gives a (readWithin depth c) (a.Holds depth c.node) (a.aliases depth c.node) := by
  rw [readWithin]
  cases hbehind : a.follow c.node with
  | scalar start tag style s =>
      have hcount : a.aliases depth c.node = c.node.ownAliases + 0 :=
        Anchors.aliases_of_scalar hbehind
      rw [hcount]
      refine Cursor.gives_unlessCustom hbehind (.orFail _) fun b => ?_
      simp [Anchors.holds_iff_of_scalar hbehind, Cursor.isCustom]
  | «alias» start target =>
      have hcount : a.aliases depth c.node = c.node.ownAliases + 0 := by
        cases depth with
        | zero => rfl
        | succ depth => simp only [Anchors.aliases, hbehind]
      rw [hcount]
      refine Cursor.gives_unlessCustom hbehind (.pure _) fun b => ?_
      simp [Anchors.holds_iff_of_alias hbehind, Cursor.isCustom]
  | sequence start tag items =>
      cases depth with
      | zero =>
          refine Cursor.gives_unlessCustom hbehind (k := 0) (.throw fun _ => id) fun b => ?_
          simp [Anchors.holds_iff_of_sequence hbehind]
      | succ inside =>
          have hcount : a.aliases (inside + 1) c.node
              = c.node.ownAliases + ((items.map (a.aliases inside)).sum + 0) := by
            simp only [Anchors.aliases, hbehind, Nat.add_zero]
          have hitems : Gives a (Cursor.readItems c.path inside (readWithin inside) 0 items)
              (Forall₂ (a.Holds inside) items) (items.map (a.aliases inside)).sum :=
            Cursor.gives_readItems (fun node path => hinside rfl ⟨node, path, inside⟩) items
          rw [hcount]
          refine Cursor.gives_unlessCustom hbehind hitems.map fun b => ?_
          simp [Anchors.holds_iff_of_sequence hbehind, Cursor.isCustom]
  | mapping start tag entries =>
      cases depth with
      | zero =>
          refine Cursor.gives_unlessCustom hbehind (k := 0) (.throw fun _ => id) fun b => ?_
          simp [Anchors.holds_iff_of_mapping hbehind]
      | succ inside =>
          have hcount : a.aliases (inside + 1) c.node = c.node.ownAliases +
              ((entries.map fun e => a.aliases inside e.1 + a.aliases inside e.2).sum + 0) := by
            simp only [Anchors.aliases, hbehind, Nat.add_zero]
          have hpairs : Gives a (readPairs c.path inside (readWithin inside) entries)
              (Forall₂ (fun e p => a.Holds inside e.1 p.1 ∧ a.Holds inside e.2 p.2) entries)
              (entries.map fun e => a.aliases inside e.1 + a.aliases inside e.2).sum :=
            gives_readPairs (fun node path => hinside rfl ⟨node, path, inside⟩) entries
          rw [hcount]
          refine Cursor.gives_unlessCustom hbehind hpairs.map fun b => ?_
          simp [Anchors.holds_iff_of_mapping hbehind, Cursor.isCustom]

/-- **What is buffered of a node is what it holds.** -/
lemma gives_readWithin : ∀ (depth : ℕ) (c : Cursor),
    Gives a (readWithin depth c) (a.Holds depth c.node) (a.aliases depth c.node)
  | 0, _ => gives_readWithin_of fun _ h => absurd h (by simp)
  | depth + 1, _ => gives_readWithin_of fun k h => by
      obtain rfl : depth = k := by omega
      exact gives_readWithin depth

lemma gives_read : Gives a (read c) (a.Holds c.depth c.node) (a.aliases c.depth c.node) :=
  gives_readWithin c.depth c

end Buffered

end WorkerGen
