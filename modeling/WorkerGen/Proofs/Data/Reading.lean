import Mathlib
import WorkerGen.Data.Buffered

/-!
# What a value that is read depends on

A reading of a node is a function of the aliases that have been followed before it and of the
aliases of the document.  A value that it gives is the same wherever its node stands and however
many aliases have been followed: these only decide whether an error comes first.

`Alike` relates two readings in this way: if both give a value, the two values are related.  It asks
nothing of errors, so that a reading which stops early is alike to every other.  It is kept by
everything that readers are made of, with one lemma for each combinator, and for a collection by
induction on its items or entries.  A reader of a node therefore gives one value at most
(`IsSettled`), which is what allows the other modules to speak of *the* operation or *the* value
that is read from a node.

* `resolve_alias` and `alike_resolve` — an alias is followed to the node that it refers to, if there
  is room for one more, and what stands behind a node is the same wherever that stands
  (`Anchors.follow`).
* `isSettled_record`, `isSettled_json`, `isSettled_read` — for records, for JSON values and for
  buffered values.  The latter two recur on the depth that is left, which is the one argument that
  two places of a node do not share, so the lemmas are about any two depths.
-/

namespace WorkerGen

open Yaml (Node)

namespace Reader

variable {α β γ δ : Type} {a : Anchors} {n m : ℕ}

/-! ## Readings that succeed

A reading that succeeds is taken apart at its binds.  These lemmas are used in that form everywhere,
and no proof looks at how readers keep their state. -/

lemma bind_apply {x : Reader α} {f : α → Reader β} :
    (x >>= f) a n = (x a n).bind fun r => f r.1 a r.2 := rfl

lemma bind_eq_ok {x : Reader α} {f : α → Reader β} {w : β} : (x >>= f) a n = .ok (w, m) ↔
    ∃ v k, x a n = .ok (v, k) ∧ f v a k = .ok (w, m) := by
  rw [bind_apply]
  cases x a n with
  | error e => simp [Except.bind]
  | ok r =>
      obtain ⟨v, k⟩ := r
      simp [Except.bind]

lemma bind_of_ok {x : Reader α} {f : α → Reader β} {v : α} (h : x a n = .ok (v, m)) :
    (x >>= f) a n = f v a m := by
  rw [bind_apply, h]
  rfl

/-- Readings that are the same with some anchors, followed by the same. -/
lemma bind_congr_at {x y : Reader α} {f g : α → Reader β} (hx : x a = y a)
    (hf : ∀ v, f v a = g v a) : (x >>= f) a = (y >>= g) a := by
  funext n
  simp only [bind_apply, hx, hf]

lemma pure_eq_ok {v w : α} : (pure v : Reader α) a n = .ok (w, m) ↔ v = w ∧ n = m := by
  have hpure : (pure v : Reader α) a n = .ok (v, n) := rfl
  rw [hpure, Except.ok.injEq, Prod.mk.injEq]

lemma bind_eq_error {x : Reader α} {f : α → Reader β} {e : DataError} :
    (x >>= f) a n = .error e ↔
      x a n = .error e ∨ ∃ v k, x a n = .ok (v, k) ∧ f v a k = .error e := by
  rw [bind_apply]
  cases x a n with
  | error e' => simp [Except.bind]
  | ok r =>
      obtain ⟨v, k⟩ := r
      simp [Except.bind]

lemma pure_ne_error {v : α} {e : DataError} : (pure v : Reader α) a n ≠ .error e := by
  have hpure : (pure v : Reader α) a n = .ok (v, n) := rfl
  rw [hpure]
  simp

lemma read_eq_ok {b : Anchors} : (read : Reader Anchors) a n = .ok (b, m) ↔ a = b ∧ n = m := by
  have hread : (read : Reader Anchors) a n = .ok (a, n) := rfl
  rw [hread, Except.ok.injEq, Prod.mk.injEq]

lemma run'_eq_ok {x : Reader α} {v : α} (h : (x.run a).run' n = .ok v) :
    ∃ m, x a n = .ok (v, m) := by
  have hrun : (x.run a).run' n = (x a n).map (·.1) := rfl
  rw [hrun] at h
  cases hx : x a n with
  | error e =>
      rw [hx] at h
      exact absurd h (by simp [Except.map])
  | ok r =>
      rw [hx] at h
      obtain rfl : r.1 = v := Except.ok.inj h
      exact ⟨r.2, rfl⟩

lemma throw_ne_ok {e : DataError} {v : α} : (throw e : Reader α) a n ≠ .ok (v, m) := by
  have hthrow : (throw e : Reader α) a n = .error e := rfl
  rw [hthrow]
  simp

lemma placing_eq_ok {c : Cursor} {x : Reader α} {v : α} :
    c.placing x a n = .ok (v, m) ↔ x a n = .ok (v, m) := by
  have hplacing : c.placing x a n = match x a n with
      | .ok r => .ok r
      | .error e => .error (e.placedAt c.place) := by
    have hcatch : c.placing x a n = Except.tryCatch (x a n) fun e => .error (e.placedAt c.place) :=
      rfl
    rw [hcatch]
    cases x a n <;> rfl
  rw [hplacing]
  cases x a n <;> simp

lemma placing_eq_error {c : Cursor} {x : Reader α} {e : DataError} :
    c.placing x a n = .error e ↔ ∃ raw, x a n = .error raw ∧ e = raw.placedAt c.place := by
  have hcatch : c.placing x a n = Except.tryCatch (x a n) fun e => .error (e.placedAt c.place) :=
    rfl
  rw [hcatch]
  cases x a n <;> simp [Except.tryCatch, eq_comm]

lemma orFail_eq_ok_iff {r : Except Cause α} {v : α} :
    Cursor.orFail r a n = .ok (v, m) ↔ r = .ok v ∧ n = m := by
  cases r with
  | error cause => simp [Cursor.orFail, failWith, throw_ne_ok]
  | ok w => rw [Cursor.orFail, pure_eq_ok, Except.ok.injEq]

lemma orFail_eq_error_iff {r : Except Cause α} {e : DataError} :
    Cursor.orFail r a n = .error e ↔ ∃ cause, r = .error cause ∧ e = .fault cause none := by
  cases r with
  | error cause =>
      have hfail : Cursor.orFail (.error cause : Except Cause α) a n
          = .error (.fault cause none) := rfl
      simp [hfail, eq_comm]
  | ok w => simp [Cursor.orFail, pure_ne_error]

/-! ## Readings that are alike

The relation is between values, so that a reading of a list can be compared with one of another
list, item by item. -/

/-- Whether two readings give values in a relation, if both give one. -/
def Alike (R : α → β → Prop) (x : Reader α) (y : Reader β) : Prop :=
  ∀ ⦃a n m n' m' v w⦄, x a n = .ok (v, m) → y a n' = .ok (w, m') → R v w

namespace Alike

variable {R : α → β → Prop} {S : γ → δ → Prop} {x : Reader α} {y : Reader β}

lemma pure {v : α} {w : β} (h : R v w) : Alike R (Pure.pure v) (Pure.pure w) := by
  intro a n m n' m' v' w' hv hw
  rw [← (pure_eq_ok.mp hv).1, ← (pure_eq_ok.mp hw).1]
  exact h

lemma bind {f : α → Reader γ} {g : β → Reader δ} (h : Alike R x y)
    (hf : ∀ v w, R v w → Alike S (f v) (g w)) : Alike S (x >>= f) (y >>= g) := by
  intro a n m n' m' v w hv hw
  obtain ⟨v', k, hx, hv⟩ := bind_eq_ok.mp hv
  obtain ⟨w', k', hy, hw⟩ := bind_eq_ok.mp hw
  exact hf v' w' (h hx hy) hv hw

lemma throw {e : DataError} : Alike R (MonadExcept.throw e) y :=
  fun _ _ _ _ _ _ _ hv _ => absurd hv throw_ne_ok

lemma throw_right {e : DataError} : Alike R x (MonadExcept.throw e : Reader β) :=
  fun _ _ _ _ _ _ _ _ hw => absurd hw throw_ne_ok

lemma failWith {cause : Cause} : Alike R (WorkerGen.failWith cause) y := throw

lemma placing {c c' : Cursor} (h : Alike R x y) : Alike R (c.placing x) (c'.placing y) :=
  fun _ _ _ _ _ _ _ hv hw => h (placing_eq_ok.mp hv) (placing_eq_ok.mp hw)

lemma orFail (r : Except Cause α) : Alike Eq (Cursor.orFail r) (Cursor.orFail r) := by
  cases r with
  | error cause => exact failWith
  | ok v => exact pure rfl

end Alike

/-- Whether a reader gives the same value wherever a node stands. -/
def IsSettled (read : Cursor → Reader α) : Prop :=
  ∀ ⦃c c' : Cursor⦄, c.node = c'.node → Alike Eq (read c) (read c')

end Reader

/-- What stands behind a node: what an alias refers to, or else the node itself. -/
def Anchors.follow (a : Anchors) : Node → Node
  | .alias start target => (a.nodes.lookup target).getD (.alias start target)
  | node => node

namespace Cursor

open Reader

variable {α σ τ : Type} {c c' : Cursor} {a : Anchors} {n m : ℕ}

/-! ## Nodes

Two nodes that are the same are followed to the same node, in whatever place they stand and however
many aliases have been followed. -/

/-- An alias is followed if there is room for one more. -/
lemma resolve_alias {start target depth : ℕ} {path : DataPath} :
    resolve ⟨.alias start target, path, depth⟩ a n = if a.limit < n + 1 then .error .tooManyAliases
      else .ok (⟨a.follow (.alias start target), path, depth⟩, n + 1) := by
  let behind : Cursor := ⟨(a.nodes.lookup target).getD (.alias start target), path, depth⟩
  have hresolve : resolve ⟨.alias start target, path, depth⟩ a n = (if a.limit < n + 1 then
      (throw .tooManyAliases : Reader PUnit) >>= fun _ => pure behind
      else (pure behind : Reader Cursor)) a (n + 1) := rfl
  rw [hresolve]
  split_ifs <;> rfl

lemma node_of_resolve {d : Cursor} (h : c.resolve a n = .ok (d, m)) :
    d.node = a.follow c.node := by
  obtain ⟨node, path, depth⟩ := c
  cases node with
  | «alias» start target =>
      rw [resolve_alias] at h
      split_ifs at h
      rw [← (Prod.mk.inj (Except.ok.inj h)).1]
  | scalar => rw [← (pure_eq_ok.mp h).1]; rfl
  | sequence => rw [← (pure_eq_ok.mp h).1]; rfl
  | mapping => rw [← (pure_eq_ok.mp h).1]; rfl

/-- What stands behind a node is the same wherever it stands. -/
lemma alike_resolve (h : c.node = c'.node) :
    Alike (fun d d' : Cursor => d.node = d'.node) c.resolve c'.resolve := by
  intro a n m n' m' d d' hd hd'
  rw [node_of_resolve hd, node_of_resolve hd', h]

lemma alike_enter : Alike (fun _ _ => True) c.enter c'.enter :=
  fun _ _ _ _ _ _ _ _ _ => trivial

/-- Readings of what stands behind a node are judged with that node in two places. -/
lemma alike_resolve_placing {read read' : Cursor → Reader α}
    (hread : ∀ node path path' depth depth',
      Alike Eq (read ⟨node, path, depth⟩) (read' ⟨node, path', depth'⟩)) (h : c.node = c'.node) :
    Alike Eq (c.resolve >>= fun d => d.placing (read d))
      (c'.resolve >>= fun d => d.placing (read' d)) := by
  refine (alike_resolve h).bind fun d d' hd => .placing ?_
  obtain ⟨node, path, depth⟩ := d
  obtain ⟨node', path', depth'⟩ := d'
  obtain rfl : node = node' := hd
  exact hread node path path' depth depth'

lemma isSettled_text (expected : String) : IsSettled (text expected) := by
  refine fun c c' => alike_resolve_placing fun node _ _ _ _ => ?_
  cases node with
  | scalar start tag style s => exact .pure rfl
  | sequence => exact .failWith
  | mapping => exact .failWith
  | «alias» => exact .failWith

/-- A value that may be null is settled if the value is. -/
lemma isSettled_optional {read : Cursor → Reader α} (hread : IsSettled read) :
    IsSettled (optional read) := by
  intro c c' h
  refine (alike_resolve h).bind fun d d' hd => ?_
  have hsome : Alike Eq (some <$> read d) (some <$> read d') :=
    (hread hd).bind fun v w hvw => .pure (congrArg some hvw)
  obtain ⟨node, path, depth⟩ := d
  obtain ⟨node', path', depth'⟩ := d'
  obtain rfl : node = node' := hd
  dsimp only
  split
  · split
    · split_ifs
      · exact .pure rfl
      · exact .failWith
    · exact hsome
    · split_ifs
      · exact .pure rfl
      · exact hsome
  · exact hsome

lemma isSettled_word16 : IsSettled word16 := by
  refine fun c c' => alike_resolve_placing fun node _ _ _ _ => ?_
  dsimp only
  split
  · split_ifs
    · split
      · split_ifs
        · exact .pure rfl
        · exact .failWith
        · exact .failWith
      · exact .failWith
    · exact .failWith
  · exact .failWith

/-! ## Collections

Items and entries are read in order, and each of them has its own place.  That two readings of a
collection give the same follows from the same for each item or entry. -/

lemma alike_readItems {read read' : Cursor → Reader α} {path path' : DataPath} {depth depth' : ℕ}
    (hread : ∀ ⦃c c' : Cursor⦄, c.node = c'.node → Alike Eq (read c) (read' c')) :
    ∀ (nodes : List Node) {index index' : ℕ}, Alike Eq (readItems path depth read index nodes)
      (readItems path' depth' read' index' nodes)
  | [], _, _ => .pure rfl
  | node :: rest, index, index' => by
      have hhead : Alike Eq (read ⟨node, path.item index, depth⟩)
          (read' ⟨node, path'.item index', depth'⟩) := hread rfl
      rw [readItems, readItems]
      refine hhead.bind fun v w hvw => (alike_readItems hread rest).bind fun s t hst => ?_
      exact .pure (by rw [hvw, hst])

lemma isSettled_items {read : Cursor → Reader α} (hread : IsSettled read) :
    IsSettled (items read) := by
  refine fun c c' => alike_resolve_placing fun node _ _ _ _ => ?_
  dsimp only
  split
  · exact alike_enter.bind fun _ _ _ => alike_readItems hread _
  · exact .pure rfl
  · exact .failWith

lemma alike_readEntries {keyExpected : String} {step : σ → String → Cursor → Reader σ}
    {path path' : DataPath} {depth depth' : ℕ} (hstep : ∀ s name, IsSettled (step s name)) :
    ∀ (nodes : List (Node × Node)) {s : σ},
      Alike Eq (readEntries path depth keyExpected step s nodes)
        (readEntries path' depth' keyExpected step s nodes)
  | [], _ => .pure rfl
  | (key, value) :: rest, s => by
      have hname : Alike Eq (text keyExpected ⟨key, path, depth⟩)
          (text keyExpected ⟨key, path', depth'⟩) := isSettled_text keyExpected rfl
      have hvalue : ∀ name, Alike Eq (step s name ⟨value, valuePath path key, depth⟩)
          (step s name ⟨value, valuePath path' key, depth'⟩) := fun name => hstep s name rfl
      rw [readEntries, readEntries]
      refine hname.bind fun name _ h => h ▸ (hvalue name).bind fun r _ h => h ▸ ?_
      exact alike_readEntries hstep rest

/-- The entries of a mapping are settled if each of them is. -/
lemma isSettled_entries {expected keyExpected : String} {init : σ}
    {step : σ → String → Cursor → Reader σ} {finish : σ → Reader α}
    (hstep : ∀ s name, IsSettled (step s name)) (hfinish : ∀ s, Alike Eq (finish s) (finish s)) :
    IsSettled (entries expected keyExpected init step finish) := by
  refine fun c c' => alike_resolve_placing fun node _ _ _ _ => ?_
  dsimp only
  split
  · refine alike_enter.bind fun _ _ _ => (alike_readEntries hstep _).bind fun s t hst => ?_
    subst hst
    exact hfinish s
  · exact hfinish init
  · exact .failWith

lemma isSettled_record {name : String} {init : σ} {field : σ → String → Cursor → Reader σ}
    {finish : σ → Reader α} (hfield : ∀ s name, IsSettled (field s name))
    (hfinish : ∀ s, Alike Eq (finish s) (finish s)) :
    IsSettled (record name init field finish) := isSettled_entries hfield hfinish

/-! ## Any value

Values are read with a bound on how deep they may nest.  What is read does not depend on the bound,
as long as it is kept. -/

lemma alike_readMembers {read read' : Cursor → Reader Json} {path path' : DataPath}
    {depth depth' : ℕ}
    (hread : ∀ ⦃c c' : Cursor⦄, c.node = c'.node → Alike Eq (read c) (read' c')) :
    ∀ (nodes : List (Node × Node)) {members : List (String × Json)},
      Alike Eq (readMembers path depth read members nodes)
        (readMembers path' depth' read' members nodes)
  | [], _ => .pure rfl
  | (key, value) :: rest, members => by
      have hname : ∀ expected, Alike Eq (text expected ⟨key, path, depth⟩)
          (text expected ⟨key, path', depth'⟩) := fun expected => isSettled_text expected rfl
      have hvalue : Alike Eq (read ⟨value, valuePath path key, depth⟩)
          (read' ⟨value, valuePath path' key, depth'⟩) := hread rfl
      rw [readMembers, readMembers]
      refine (hname _).bind fun name _ h => h ▸ hvalue.bind fun json _ h => h ▸ ?_
      exact alike_readMembers hread rest

lemma alike_jsonWithin_of {depth depth' : ℕ} (hinside : ∀ ⦃k k'⦄, depth = k + 1 → depth' = k' + 1 →
      ∀ ⦃c c' : Cursor⦄, c.node = c'.node → Alike Eq (jsonWithin k c) (jsonWithin k' c'))
    (h : c.node = c'.node) : Alike Eq (jsonWithin depth c) (jsonWithin depth' c') := by
  rw [jsonWithin, jsonWithin]
  refine alike_resolve_placing (fun node path path' _ _ => ?_) h
  dsimp only
  split_ifs
  · exact .failWith
  split
  · exact .orFail _
  · exact .pure rfl
  · cases depth with
    | zero => exact .throw
    | succ k =>
        cases depth' with
        | zero => exact .throw_right
        | succ k' =>
            refine (alike_readItems (hinside rfl rfl) _).bind fun s t hst => ?_
            exact .pure (by rw [hst])
  · cases depth with
    | zero => exact .throw
    | succ k =>
        cases depth' with
        | zero => exact .throw_right
        | succ k' =>
            refine (alike_readMembers (hinside rfl rfl) _).bind fun s t hst => ?_
            exact .pure (by rw [hst])

lemma alike_jsonWithin : ∀ (depth depth' : ℕ) ⦃c c' : Cursor⦄, c.node = c'.node →
    Alike Eq (jsonWithin depth c) (jsonWithin depth' c')
  | 0, _, _, _, h => alike_jsonWithin_of (fun _ _ hk => absurd hk (by simp)) h
  | depth + 1, depth', _, _, h => by
      refine alike_jsonWithin_of (fun k k' hk hk' => ?_) h
      obtain rfl : depth = k := by omega
      exact alike_jsonWithin depth k'

lemma isSettled_json : IsSettled json := fun _ _ h => alike_jsonWithin _ _ h

end Cursor

/-! ## Buffered values -/

namespace Buffered

open Reader

variable {c c' : Cursor}

lemma alike_readPairs {read read' : Cursor → Reader Buffered} {path path' : DataPath}
    {depth depth' : ℕ}
    (hread : ∀ ⦃c c' : Cursor⦄, c.node = c'.node → Alike Eq (read c) (read' c')) :
    ∀ nodes : List (Node × Node), Alike Eq (readPairs path depth read nodes)
      (readPairs path' depth' read' nodes)
  | [] => .pure rfl
  | (key, value) :: rest => by
      have hkey : Alike Eq (read ⟨key, path, depth⟩) (read' ⟨key, path', depth'⟩) := hread rfl
      have hvalue : Alike Eq (read ⟨value, Cursor.valuePath path key, depth⟩)
          (read' ⟨value, Cursor.valuePath path' key, depth'⟩) := hread rfl
      rw [readPairs, readPairs]
      refine hkey.bind fun k _ h => h ▸ hvalue.bind fun v _ h => h ▸ ?_
      exact (alike_readPairs hread rest).bind fun s _ h => h ▸ .pure rfl

lemma alike_readWithin_of {depth depth' : ℕ} (hinside : ∀ ⦃k k'⦄, depth = k + 1 → depth' = k' + 1 →
      ∀ ⦃c c' : Cursor⦄, c.node = c'.node → Alike Eq (readWithin k c) (readWithin k' c'))
    (h : c.node = c'.node) : Alike Eq (readWithin depth c) (readWithin depth' c') := by
  rw [readWithin, readWithin]
  refine Cursor.alike_resolve_placing (fun node path path' _ _ => ?_) h
  dsimp only
  split_ifs
  · exact .failWith
  split
  · exact .orFail _
  · exact .pure rfl
  · cases depth with
    | zero => exact .throw
    | succ k =>
        cases depth' with
        | zero => exact .throw_right
        | succ k' =>
            refine (Cursor.alike_readItems (hinside rfl rfl) _).bind fun s t hst => ?_
            exact .pure (by rw [hst])
  · cases depth with
    | zero => exact .throw
    | succ k =>
        cases depth' with
        | zero => exact .throw_right
        | succ k' =>
            refine (alike_readPairs (hinside rfl rfl) _).bind fun s t hst => ?_
            exact .pure (by rw [hst])

lemma alike_readWithin : ∀ (depth depth' : ℕ) ⦃c c' : Cursor⦄, c.node = c'.node →
    Alike Eq (readWithin depth c) (readWithin depth' c')
  | 0, _, _, _, h => alike_readWithin_of (fun _ _ hk => absurd hk (by simp)) h
  | depth + 1, depth', _, _, h => by
      refine alike_readWithin_of (fun k k' hk hk' => ?_) h
      obtain rfl : depth = k := by omega
      exact alike_readWithin depth k'

lemma isSettled_read : IsSettled read := fun _ _ h => alike_readWithin _ _ h

end Buffered

end WorkerGen
