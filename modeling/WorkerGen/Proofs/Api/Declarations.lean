import Mathlib
import WorkerGen.Api.Reading
import WorkerGen.Proofs.Data.Reading
import WorkerGen.Proofs.Listing

/-!
# The operations that a document declares

`declarations` are the operations that a document declares, one for each method under each path, in
the order in which they are written.  A description that is read has them all, as they are read from
their nodes, unless a path is written twice (`operations_of_parse`): then the later mapping takes
the place of the earlier one, and what that declares is lost (`not_kept_repeatedPath`).  A method
that is written twice under one path is refused.

Which operations are declared is read off the nodes of a document, without reading any record: the
entries of the mapping under `paths`, and for each of them those whose names are methods.  What an
operation is, though, is what its node is read as.  That this is a property of the node alone has to
be shown first (`Anchors.IsRead.unique`).

The reader goes through two mappings, one within the other, and adds what it finds to what it has.
`Anchors.Reads` is what such a loop comes to, as a relation between what there was and what there is
afterwards, so that the two loops are followed by induction on it and not on their nodes.

* `Cursor.operations_of_pathItem` — the operations of a path are those that are written there.
* `Cursor.items_of_paths` — the paths of a description are those that are written, each with what is
  written the last time (`lastOfEach`).
* `Cursor.paths_of_api` — the paths are written once at most, and read from there.
-/

namespace WorkerGen

open List (Forall₂)
open Reader
open Yaml (Node)

/-! ## What is declared

A key may be an alias of a scalar, and is then known by the text of that. -/

namespace Anchors

variable (a : Anchors)

/-- The text of a key. -/
def name? (key : Node) : Option String :=
  match a.follow key with
  | .scalar _ _ _ text => some text
  | _ => none

variable {a} in
lemma name?_eq_some_iff {key : Node} {s : String} :
    a.name? key = some s ↔ ∃ start tag style, a.follow key = .scalar start tag style s := by
  rw [name?]
  cases a.follow key <;> simp

/-- The entries of a mapping under their names, in order. -/
def members (node : Node) : List (String × Node) :=
  match a.follow node with
  | .mapping _ _ entries => entries.filterMap fun e => (a.name? e.1).map (·, e.2)
  | _ => []

/-- The methods under a path. -/
def methods (item : Node) : List (Method × Node) :=
  (a.members item).filterMap fun e => (Method.ofName? e.1).map (·, e.2)

/-- The operations under some paths. -/
def declarations (paths : List (String × Node)) : List (String × Method × Node) :=
  paths.flatMap fun e => (a.methods e.2).map fun f => (e.1, f.1, f.2)

/-- Whether an operation is read from a node. -/
def IsRead (node : Node) (operation : Operation) : Prop :=
  ∃ path depth n m read, Cursor.optional Cursor.operation ⟨node, path, depth⟩ a n = .ok (read, m) ∧
    operation = read.getD .blank

end Anchors

namespace Yaml.Document

variable (d : Yaml.Document)

/-- What reading a document knows of its aliases. -/
def anchors : Anchors := ⟨d.anchored, d.weight * 100⟩

/-- The paths of a document, with what is written under them. -/
def paths : List (String × Node) :=
  match d.root with
  | none => []
  | some root =>
    ((d.anchors.members root).filter (·.1 == "paths")).flatMap fun e => d.anchors.members e.2

end Yaml.Document

/-! ## Operations are settled

The number of aliases that have been followed before differs from one place to another, and so do
the paths that errors tell.  Neither changes an operation that is read. -/

section
variable {α : Type}

lemma alike_readField {name : String} {seen : Option α} {x y : Reader α} (h : Alike Eq x y) :
    Alike Eq (Format.document.readField name seen x) (Format.document.readField name seen y) := by
  rw [Format.readField, Format.readField]
  split_ifs
  · exact .throw
  · exact h.bind fun v _ h => h ▸ .pure rfl

namespace Cursor

lemma isSettled_optionalText : IsSettled optionalText := isSettled_optional (isSettled_text _)

lemma isSettled_texts : IsSettled texts :=
  isSettled_entries (fun _ _ _ _ h => (isSettled_text _ h).bind fun _ _ h => h ▸ .pure rfl)
    fun _ => .pure rfl

lemma isSettled_step : IsSettled step := by
  refine isSettled_entries (fun f name c c' h => ?_) fun f => ?_
  · unfold Format.stepField
    split_ifs
    · exact (alike_readField (isSettled_optionalText h)).bind fun _ _ h => h ▸ .pure rfl
    · exact (alike_readField (isSettled_optionalText h)).bind fun _ _ h => h ▸ .pure rfl
    · exact (Buffered.isSettled_read h).bind fun _ _ h => h ▸ .pure rfl
  · exact (Alike.orFail _).bind fun _ _ h => h ▸ .pure rfl

lemma isSettled_response : IsSettled response := by
  refine isSettled_record (fun f name c c' h => ?_) fun f => .pure rfl
  split_ifs
  · exact (alike_readField (isSettled_word16 h)).bind fun _ _ h => h ▸ .pure rfl
  · exact (alike_readField (isSettled_texts h)).bind fun _ _ h => h ▸ .pure rfl
  · exact (alike_readField (isSettled_optional isSettled_json h)).bind fun _ _ h => h ▸ .pure rfl
  · exact .pure rfl

lemma isSettled_operation : IsSettled operation := by
  refine isSettled_record (fun f name c c' h => ?_) fun f => .pure rfl
  have hsteps := isSettled_optional (isSettled_items isSettled_step) h
  have hresponse := isSettled_optional isSettled_response h
  split_ifs
  · exact (alike_readField (isSettled_optionalText h)).bind fun _ _ h => h ▸ .pure rfl
  · exact (alike_readField (isSettled_optionalText h)).bind fun _ _ h => h ▸ .pure rfl
  · exact (alike_readField hsteps).bind fun _ _ h => h ▸ .pure rfl
  · exact (alike_readField hresponse).bind fun _ _ h => h ▸ .pure rfl
  · exact .pure rfl

end Cursor

end

/-- **A node is read as one operation at most**, wherever it stands and whatever has been read
before. -/
theorem Anchors.IsRead.unique {a : Anchors} {node : Node} {o o' : Operation} (h : a.IsRead node o)
    (h' : a.IsRead node o') : o = o' := by
  obtain ⟨path, depth, n, m, read, hread, rfl⟩ := h
  obtain ⟨path', depth', n', m', read', hread', rfl⟩ := h'
  have halike : Alike Eq (Cursor.optional Cursor.operation ⟨node, path, depth⟩)
      (Cursor.optional Cursor.operation ⟨node, path', depth'⟩) :=
    Cursor.isSettled_optional Cursor.isSettled_operation rfl
  rw [halike hread hread']

/-! ## Reading entries one by one

A key is read as a text, and what is done with its value depends on the text.  The relation leaves
open what that is; it says that entries come in order and that each is read under its own name. -/

/-- Whether a result comes from another by reading some entries under their names. -/
inductive Anchors.Reads (a : Anchors) {σ : Type} (step : σ → String → Cursor → Reader σ) :
    σ → List (String × Node) → σ → Prop
  | nil (s : σ) : Reads a step s [] s
  | cons {s t r : σ} {name : String} {node : Node} {rest : List (String × Node)} (path : DataPath)
      (depth n m : ℕ) (read : step s name ⟨node, path, depth⟩ a n = .ok (t, m))
      (further : Reads a step t rest r) : Reads a step s ((name, node) :: rest) r

section
variable {a : Anchors} {n m : ℕ} {σ α : Type} {c : Cursor}

lemma Cursor.name?_of_text {expected name : String} (h : text expected c a n = .ok (name, m)) :
    a.name? c.node = some name := by
  obtain ⟨d, k, hd, h⟩ := bind_eq_ok.mp h
  rw [placing_eq_ok] at h
  rw [Anchors.name?, ← node_of_resolve hd]
  cases hnode : d.node with
  | scalar start tag style s =>
      rw [hnode] at h
      rw [(pure_eq_ok.mp h).1]
  | _ =>
      rw [hnode] at h
      exact absurd h throw_ne_ok

lemma Cursor.reads_of_readEntries {path : DataPath} {depth : ℕ} {keyExpected : String}
    {step : σ → String → Cursor → Reader σ} : ∀ {nodes : List (Node × Node)} {s r : σ} {n m : ℕ},
    readEntries path depth keyExpected step s nodes a n = .ok (r, m) →
      a.Reads step s (nodes.filterMap fun e => (a.name? e.1).map (·, e.2)) r
  | [], s, r, _, _, h => by
      rw [(pure_eq_ok.mp h).1]
      exact .nil r
  | (key, value) :: rest, s, r, n, m, h => by
      rw [readEntries] at h
      obtain ⟨name, k, hname, h⟩ := bind_eq_ok.mp h
      obtain ⟨t, l, hstep, h⟩ := bind_eq_ok.mp h
      have hkey : a.name? key = some name := name?_of_text hname
      rw [List.filterMap_cons_some (by rw [hkey, Option.map_some])]
      exact .cons _ _ _ _ hstep (reads_of_readEntries h)

/-- The entries of a mapping are read one by one. -/
lemma Cursor.reads_of_entries {expected keyExpected : String} {init : σ}
    {step : σ → String → Cursor → Reader σ} {finish : σ → Reader α} {v : α}
    (h : entries expected keyExpected init step finish c a n = .ok (v, m)) :
    ∃ r k, a.Reads step init (a.members c.node) r ∧ finish r a k = .ok (v, m) := by
  obtain ⟨⟨node, path, depth⟩, k, hd, h⟩ := bind_eq_ok.mp h
  rw [placing_eq_ok] at h
  rw [Anchors.members, ← node_of_resolve hd]
  dsimp only at h ⊢
  split at h
  · obtain ⟨inside, l, -, h⟩ := bind_eq_ok.mp h
    obtain ⟨r, l', hread, h⟩ := bind_eq_ok.mp h
    exact ⟨r, l', reads_of_readEntries hread, h⟩
  · exact ⟨init, k, .nil init, h⟩
  · exact absurd h throw_ne_ok

end

/-! ## The operations of a path

An operation is added if its method is not there already, and put behind those that are. -/

section
variable {κ α β : Type} [DecidableEq κ] {key : κ} {value : α}

/-- Setting a key twice alike keeps entries alike. -/
lemma forall₂_setEntry {R : α → β → Prop} {value' : β} (hvalue : R value value') :
    ∀ {s : List (κ × α)} {t : List (κ × β)}, Forall₂ (fun e f => e.1 = f.1 ∧ R e.2 f.2) s t →
      Forall₂ (fun e f => e.1 = f.1 ∧ R e.2 f.2) (setEntry key value s) (setEntry key value' t)
  | [], [], _ => .cons ⟨rfl, hvalue⟩ .nil
  | (k, v) :: s, (k', v') :: t, h => by
      obtain ⟨⟨hk, hv⟩, hrest⟩ := List.forall₂_cons.mp h
      dsimp only at hk
      subst hk
      rw [setEntry, setEntry]
      split_ifs with heq
      · exact .cons ⟨rfl, hvalue⟩ hrest
      · exact .cons ⟨rfl, hv⟩ (forall₂_setEntry hvalue hrest)

end

section
variable {a : Anchors} {n m : ℕ} {c : Cursor}

/-- Whether an operation of a path is read from what is written under its method. -/
def Anchors.IsOperation (a : Anchors) (e : Method × Node) (f : Method × Operation) : Prop :=
  e.1 = f.1 ∧ a.IsRead e.2 f.2

lemma entries_of_add {item item' : PathItem} {method : Method} {operation : Operation}
    (h : item.add method operation = .ok item') :
    item'.entries = item.entries ++ [(method, operation)] := by
  rw [PathItem.add] at h
  split_ifs at h with hcontains
  obtain rfl := Except.ok.inj h
  refine setEntry_of_notMem fun hmem => hcontains ?_
  obtain ⟨e, he, heq⟩ := List.mem_map.mp hmem
  exact List.any_eq_true.mpr ⟨e, he, by simpa using heq⟩

/-- What is read under the names of methods is added in order. -/
lemma Anchors.Reads.operations {item item' : PathItem} {written : List (String × Node)}
    (h : a.Reads Cursor.addOperation item written item') : ∃ added,
      item'.entries = item.entries ++ added ∧ Forall₂ a.IsOperation
        (written.filterMap fun e => (Method.ofName? e.1).map (·, e.2)) added := by
  induction h with
  | nil item => exact ⟨[], by simp, .nil⟩
  | @cons s t r name node rest path depth n m read further ih =>
      obtain ⟨added, hentries, hadded⟩ := ih
      rw [Cursor.addOperation, Format.addOperation] at read
      cases hname : Method.ofName? name with
      | none =>
          rw [hname] at read
          obtain rfl := (pure_eq_ok.mp read).1
          rw [List.filterMap_cons_none (by rw [hname, Option.map_none])]
          exact ⟨added, hentries, hadded⟩
      | some method =>
          rw [hname] at read
          obtain ⟨operation, k, hread, hadd⟩ := bind_eq_ok.mp read
          have hlast := entries_of_add (orFail_eq_ok_iff.mp hadd).1
          rw [List.filterMap_cons_some (by rw [hname, Option.map_some])]
          refine ⟨(method, operation.getD .blank) :: added, ?_, .cons ⟨rfl, ?_⟩ hadded⟩
          · rw [hentries, hlast, List.append_assoc, List.singleton_append]
          · exact ⟨path, depth, n, k, operation, hread, rfl⟩

/-- The operations of a path are those that are written there, in order. -/
lemma Cursor.operations_of_pathItem {item : PathItem} (h : c.pathItem a n = .ok (item, m)) :
    Forall₂ a.IsOperation (a.methods c.node) item.entries := by
  obtain ⟨⟨node, path, depth⟩, k, hd, h⟩ := bind_eq_ok.mp h
  rw [placing_eq_ok] at h
  rw [Anchors.methods, Anchors.members, ← node_of_resolve hd]
  dsimp only at h ⊢
  split_ifs at h
  · exact absurd h throw_ne_ok
  split at h
  · next start tag style s _ =>
    cases hmeaning : scalarMeaning tag style s with
    | error cause =>
        rw [hmeaning] at h
        exact absurd h throw_ne_ok
    | ok meaning =>
        rw [hmeaning] at h
        cases meaning with
        | null =>
            obtain rfl := (pure_eq_ok.mp h).1
            exact .nil
        | _ => exact absurd h throw_ne_ok
  · obtain ⟨inside, l, -, h⟩ := bind_eq_ok.mp h
    have hreads : a.Reads addOperation .empty _ item := reads_of_readEntries h
    obtain ⟨added, hentries, hadded⟩ := hreads.operations
    rw [hentries]
    exact hadded
  · exact absurd h throw_ne_ok

end

/-! ## The paths of a description

A path that is there already gets another item in the same place, and any other is put behind. -/

section
variable {a : Anchors} {n m : ℕ} {c : Cursor}

/-- Whether the operations of a path are read from what is written under it. -/
def Anchors.IsItem (a : Anchors) (node : Node) (item : PathItem) : Prop :=
  Forall₂ a.IsOperation (a.methods node) item.entries

/-- Paths with what is written under each the last time, in the order in which they first come. -/
def lastOfEach (paths : List (String × Node)) : List (String × Node) :=
  paths.foldl (fun entries e => setEntry e.1 e.2 entries) []

/-- What is read under paths is set one by one. -/
lemma Anchors.Reads.paths {paths paths' : Listing String PathItem}
    {written earlier : List (String × Node)}
    (h : a.Reads Format.document.setPath paths written paths')
    (hpaths : Forall₂ (fun e f => e.1 = f.1 ∧ a.IsItem e.2 f.2) earlier paths.entries) :
    Forall₂ (fun e f => e.1 = f.1 ∧ a.IsItem e.2 f.2)
        (written.foldl (fun entries e => setEntry e.1 e.2 entries) earlier) paths'.entries ∧
      ∀ e ∈ written, ∃ item, a.IsItem e.2 item := by
  induction h generalizing earlier with
  | nil paths => exact ⟨hpaths, by simp⟩
  | @cons s t r name node rest path depth n m read further ih =>
      obtain ⟨item, k, hitem, hset⟩ := bind_eq_ok.mp read
      obtain rfl := (pure_eq_ok.mp hset).1
      have hread : a.IsItem node item := Cursor.operations_of_pathItem hitem
      obtain ⟨hall, heach⟩ := ih (forall₂_setEntry hread hpaths)
      exact ⟨hall, List.forall_mem_cons.mpr ⟨⟨item, hread⟩, heach⟩⟩

/-- The paths of a description are those that are written, each with what is written the last
time. -/
lemma Cursor.items_of_paths {paths : Listing String PathItem} (h : c.paths a n = .ok (paths, m)) :
    Forall₂ (fun e f => e.1 = f.1 ∧ a.IsItem e.2 f.2) (lastOfEach (a.members c.node))
        paths.entries ∧ ∀ e ∈ a.members c.node, ∃ item, a.IsItem e.2 item := by
  obtain ⟨r, k, hreads, hfinish⟩ := reads_of_entries h
  obtain rfl := (pure_eq_ok.mp hfinish).1
  have hreads : a.Reads Format.document.setPath .empty (a.members c.node) _ := hreads
  exact hreads.paths .nil

end

/-! ## The field of the paths

A description has other fields, which may come before or behind its paths and leave them as they
are.  A second field for the paths is refused. -/

section
variable {a : Anchors} {n m : ℕ} {c : Cursor}

/-- Whether reading an entry of a description sets its paths if it is theirs, and leaves them
otherwise. -/
structure Anchors.SetsPaths (a : Anchors) (f : ApiFields) (name : String) (node : Node)
    (f' : ApiFields) : Prop where
  own : name = "paths" → f.paths = none ∧ ∃ c n m paths, c.node = node ∧
    Cursor.paths c a n = .ok (paths, m) ∧ f'.paths = some paths
  other : name ≠ "paths" → f'.paths = f.paths

lemma readField_eq_ok {α : Type} {name : String} {seen v : Option α} {x : Reader α}
    (h : Format.document.readField name seen x a n = .ok (v, m)) :
    seen = none ∧ ∃ w k, x a k = .ok (w, m) ∧ v = some w := by
  rw [Format.readField] at h
  cases seen with
  | some w =>
      obtain ⟨_, _, hthrow, _⟩ := bind_eq_ok.mp h
      exact absurd hthrow throw_ne_ok
  | none =>
      obtain ⟨w, k, hx, h⟩ := bind_eq_ok.mp h
      obtain ⟨rfl, rfl⟩ := pure_eq_ok.mp h
      exact ⟨rfl, w, _, hx, rfl⟩

/-- The paths are written once at most, and read from there. -/
lemma Anchors.Reads.field {step : ApiFields → String → Cursor → Reader ApiFields}
    (hstep : ∀ {f name c f' n m}, step f name c a n = .ok (f', m) → a.SetsPaths f name c.node f')
    {f f' : ApiFields} {written : List (String × Node)} (h : a.Reads step f written f') :
    (f'.paths = f.paths ∧ written.filter (·.1 == "paths") = []) ∨
      f.paths = none ∧ ∃ e c n m paths, written.filter (·.1 == "paths") = [e] ∧ c.node = e.2 ∧
        Cursor.paths c a n = .ok (paths, m) ∧ f'.paths = some paths := by
  induction h with
  | nil f => exact .inl ⟨rfl, rfl⟩
  | @cons s t r name node rest path depth n m read further ih =>
      have hset := hstep read
      by_cases hname : name = "paths"
      · obtain ⟨hnone, c, n', m', paths, hnode, hread, hpaths⟩ := hset.own hname
        rcases ih with ⟨hsame, hrest⟩ | ⟨hnone', -⟩
        · refine .inr ⟨hnone, (name, node), c, n', m', paths, ?_, hnode, hread, hsame.trans hpaths⟩
          rw [List.filter_cons_of_pos (by simpa using hname), hrest]
        · rw [hpaths] at hnone'
          exact absurd hnone' (by simp)
      · rw [List.filter_cons_of_neg (by simpa using hname), ← hset.other hname]
        exact ih

/-- The paths of a description are read from where they are written, if they are. -/
lemma Cursor.paths_of_api {api : Api} (h : c.api a n = .ok (api, m)) :
    ((a.members c.node).filter (·.1 == "paths") = [] ∧ api.paths = .empty) ∨
      ∃ e d n m, (a.members c.node).filter (·.1 == "paths") = [e] ∧ d.node = e.2 ∧
        Cursor.paths d a n = .ok (api.paths, m) := by
  obtain ⟨f, k, hreads, hfinish⟩ := reads_of_entries h
  obtain rfl := (pure_eq_ok.mp hfinish).1
  have hfield := hreads.field fun {f name c f' n m} hstep => ?_
  · rcases hfield with ⟨hnone, hwritten⟩ | ⟨-, e, d, n', m', paths, hwritten, hnode, hread, hpaths⟩
    · exact .inl ⟨hwritten, by rw [hnone]; rfl⟩
    · exact .inr ⟨e, d, n', m', hwritten, hnode, by rw [hpaths]; exact hread⟩
  · have hother : f'.paths = f.paths → name ≠ "paths" → a.SetsPaths f name c.node f' :=
      fun hsame hname => ⟨fun heq => absurd heq hname, fun _ => hsame⟩
    split_ifs at hstep with hopenapi hinfo hpaths hdefaults
    · obtain ⟨_, _, -, hstep⟩ := bind_eq_ok.mp hstep
      obtain rfl := (pure_eq_ok.mp hstep).1
      exact hother rfl (by rintro rfl; exact absurd hopenapi (by decide))
    · obtain ⟨_, _, -, hstep⟩ := bind_eq_ok.mp hstep
      obtain rfl := (pure_eq_ok.mp hstep).1
      exact hother rfl (by rintro rfl; exact absurd hinfo (by decide))
    · obtain ⟨paths, l, hread, hstep⟩ := bind_eq_ok.mp hstep
      obtain rfl := (pure_eq_ok.mp hstep).1
      obtain ⟨hnone, paths', l', hread', rfl⟩ := readField_eq_ok hread
      exact ⟨fun _ => ⟨hnone, c, l', l, paths', rfl, hread', rfl⟩,
        fun hname => absurd (by simpa using hpaths) hname⟩
    · obtain ⟨_, _, -, hstep⟩ := bind_eq_ok.mp hstep
      obtain rfl := (pure_eq_ok.mp hstep).1
      exact hother rfl (by rintro rfl; exact absurd hdefaults (by decide))
    · obtain rfl := (pure_eq_ok.mp hstep).1
      exact hother rfl (by simpa using hpaths)

end

/-! ## What is kept

Both loops together: the items of the paths have the operations that are declared under them, path
by path and in order. -/

section
variable {d : Yaml.Document} {api : Api}

/-- Whether an operation is read from what is declared. -/
def Anchors.IsDeclared (a : Anchors) (e : String × Method × Node)
    (o : String × Method × Operation) : Prop :=
  e.1 = o.1 ∧ e.2.1 = o.2.1 ∧ a.IsRead e.2.2 o.2.2

/-- The items of paths have the operations that are declared under them. -/
lemma forall₂_declarations {a : Anchors} : ∀ {paths : List (String × Node)}
    {entries : List (String × PathItem)},
    Forall₂ (fun e f => e.1 = f.1 ∧ a.IsItem e.2 f.2) paths entries →
      Forall₂ a.IsDeclared (a.declarations paths) (entries.flatMap fun e =>
        e.2.entries.map fun f => (e.1, f.1, f.2))
  | [], [], _ => .nil
  | (path, node) :: paths, (path', item) :: entries, h => by
      obtain ⟨⟨hpath, hitem⟩, hrest⟩ := List.forall₂_cons.mp h
      dsimp only at hpath
      subst hpath
      rw [Anchors.declarations, List.flatMap_cons, List.flatMap_cons]
      refine List.rel_append ?_ (forall₂_declarations hrest)
      rw [List.forall₂_map_left_iff, List.forall₂_map_right_iff]
      exact hitem.imp fun e f h => ⟨rfl, h.1, h.2⟩

/-- What the paths of a document have come to in a description that is read. -/
lemma items_of_ofDocument (h : Api.ofDocument d = .ok api) :
    Forall₂ (fun e f => e.1 = f.1 ∧ d.anchors.IsItem e.2 f.2) (lastOfEach d.paths)
        api.paths.entries ∧ ∀ e ∈ d.paths, ∃ item, d.anchors.IsItem e.2 item := by
  have hread : d.read .empty Cursor.api = .ok api := by
    rw [Api.ofDocument] at h
    cases hread : d.read .empty Cursor.api with
    | error e =>
        rw [hread] at h
        exact absurd h (by simp)
    | ok api' =>
        rw [hread] at h
        rw [Except.ok.inj h]
  rw [Yaml.Document.read] at hread
  cases hroot : d.root with
  | none =>
      have hpaths : d.paths = [] := by rw [Yaml.Document.paths, hroot]
      rw [hroot] at hread
      obtain rfl := Except.ok.inj hread
      rw [hpaths]
      exact ⟨.nil, by simp⟩
  | some root =>
      have hwritten : d.paths = ((d.anchors.members root).filter (·.1 == "paths")).flatMap
          fun e => d.anchors.members e.2 := by rw [Yaml.Document.paths, hroot]
      rw [hroot] at hread
      obtain ⟨m, hrun⟩ : ∃ m, Cursor.api ⟨root, .root, Cursor.depthLimit⟩ d.anchors 0
          = .ok (api, m) := run'_eq_ok hread
      rw [hwritten]
      rcases Cursor.paths_of_api hrun with ⟨hnone, hpaths⟩ | ⟨e, c, n, m, hone, hnode, hpaths⟩
      · rw [hnone, hpaths]
        exact ⟨.nil, by simp⟩
      · rw [hone, List.flatMap_singleton, ← hnode]
        exact Cursor.items_of_paths hpaths

/-- **A description has the operations that its document declares**, under each path those that are
written there the last time, and a document that declares a method of a path twice gives none. -/
theorem operations_of_ofDocument (h : Api.ofDocument d = .ok api) :
    Forall₂ d.anchors.IsDeclared (d.anchors.declarations (lastOfEach d.paths)) api.operations ∧
      ∀ e ∈ d.paths, ((d.anchors.methods e.2).map (·.1)).Nodup := by
  obtain ⟨hitems, heach⟩ := items_of_ofDocument h
  refine ⟨forall₂_declarations hitems, fun e he => ?_⟩
  obtain ⟨item, hitem⟩ := heach e he
  have hkeys : (d.anchors.methods e.2).map (·.1) = item.entries.map (·.1) := by
    rw [← List.forall₂_eq_eq_eq, List.forall₂_map_left_iff, List.forall₂_map_right_iff]
    exact hitem.imp fun _ _ h => h.1
  rw [hkeys]
  exact item.distinct

/-- Paths that are each written once are all kept. -/
lemma lastOfEach_of_nodup {paths : List (String × Node)} (h : (paths.map (·.1)).Nodup) :
    lastOfEach paths = paths := by
  have hfold : ∀ (paths earlier : List (String × Node)), ((earlier ++ paths).map (·.1)).Nodup →
      paths.foldl (fun entries e => setEntry e.1 e.2 entries) earlier = earlier ++ paths := by
    intro paths
    induction paths with
    | nil => simp
    | cons e paths ih =>
        intro earlier h
        have hnew : e.1 ∉ earlier.map (·.1) := by
          rw [List.map_append, List.nodup_append] at h
          exact fun hmem => h.2.2 _ hmem _ List.mem_cons_self rfl
        rw [← List.singleton_append (x := e), ← List.append_assoc] at h ⊢
        rw [List.singleton_append, List.foldl_cons, setEntry_of_notMem hnew, ih _ h]
  exact hfold paths [] h

end

/-! ## Documents as texts

A text that is no document gives no description either, so a text can be asked for what its document
declares. -/

/-- **A text gives a description with all operations that its document declares**, in order, unless
a path is written twice; then what is written there the last time counts.  A text in which a method
of a path is written twice gives none. -/
theorem operations_of_parse {text : String} {d : Yaml.Document}
    (hparse : Yaml.Document.parse text = .ok d) (htext : text.toList.all Text.isBlank = false) :
    (∀ api, Api.parse text = .ok api →
        Forall₂ d.anchors.IsDeclared (d.anchors.declarations (lastOfEach d.paths)) api.operations ∧
        ((d.paths.map (·.1)).Nodup →
          Forall₂ d.anchors.IsDeclared (d.anchors.declarations d.paths) api.operations)) ∧
      ((∃ e ∈ d.paths, ¬ ((d.anchors.methods e.2).map (·.1)).Nodup) →
        ∃ error, Api.parse text = .error error) := by
  have hread : Api.parse text = Api.ofDocument d := by
    rw [Api.parse, htext, if_neg Bool.false_ne_true, hparse]
  rw [hread]
  refine ⟨fun api h => ?_, ?_⟩
  · obtain ⟨hdeclared, -⟩ := operations_of_ofDocument h
    exact ⟨hdeclared, fun hnodup => by rwa [lastOfEach_of_nodup hnodup] at hdeclared⟩
  · rintro ⟨e, he, hrepeated⟩
    cases h : Api.ofDocument d with
    | error error => exact ⟨error, rfl⟩
    | ok api => exact absurd ((operations_of_ofDocument h).2 e he) hrepeated

lemma exists_of_map_toOption {ε α β : Type} {r : Except ε α} {f : α → β} {b : β}
    (h : r.toOption.map f = some b) : ∃ v, r = .ok v ∧ f v = b := by
  cases r with
  | error e => exact absurd h (by simp [Except.toOption])
  | ok v => exact ⟨v, rfl, Option.some.inj h⟩

/-- A document with methods in several cases, one of them with nothing written under it, and a key
that names none. -/
def severalMethods : String :=
  "paths:\n  /a:\n    summary: s\n    GET: &op\n      operationId: a\n    put: *op\n" ++
  "  /b:\n    Post:\n"

theorem operations_of_parse_severalMethods : ∃ d api,
    Yaml.Document.parse severalMethods = .ok d ∧ Api.parse severalMethods = .ok api ∧
      (d.paths.map (·.1)).Nodup ∧
      Forall₂ d.anchors.IsDeclared (d.anchors.declarations d.paths) api.operations ∧
      api.operations = [("/a", .get, ⟨some "a", none, none, none⟩),
        ("/a", .put, ⟨some "a", none, none, none⟩), ("/b", .post, .blank)] := by
  have hpaths : (Yaml.Document.parse severalMethods).toOption.map (fun d => d.paths.map (·.1))
      = some ["/a", "/b"] := by decide +kernel
  have hoperations : (Api.parse severalMethods).toOption.map (·.operations)
      = some [("/a", .get, ⟨some "a", none, none, none⟩),
        ("/a", .put, ⟨some "a", none, none, none⟩), ("/b", .post, .blank)] := by decide +kernel
  obtain ⟨d, hparse, hd⟩ := exists_of_map_toOption hpaths
  obtain ⟨api, hread, hapi⟩ := exists_of_map_toOption hoperations
  have hnodup : (d.paths.map (·.1)).Nodup := by
    rw [hd]
    decide
  have hkept := (operations_of_parse hparse (by decide)).1 api hread
  exact ⟨d, api, hparse, hread, hnodup, hkept.2 hnodup, hapi⟩

/-- A document in which a path is written twice. -/
def repeatedPath : String := "paths:\n  /a:\n    get: {}\n  /a:\n    put: {}\n"

/-- **What is written under a path is lost** where the path is written again: the description of
such a document has only one of its two operations. -/
theorem not_kept_repeatedPath : ∃ d api,
    Yaml.Document.parse repeatedPath = .ok d ∧ Api.parse repeatedPath = .ok api ∧
      (d.anchors.declarations d.paths).map (fun e => (e.1, e.2.1)) = [("/a", .get), ("/a", .put)] ∧
      api.operations = [("/a", .put, .blank)] ∧
      ¬ Forall₂ d.anchors.IsDeclared (d.anchors.declarations d.paths) api.operations := by
  have hpaths : (Yaml.Document.parse repeatedPath).toOption.map (fun d =>
      (d.anchors.declarations d.paths).map fun e => (e.1, e.2.1))
        = some [("/a", .get), ("/a", .put)] := by decide +kernel
  have hoperations : (Api.parse repeatedPath).toOption.map (·.operations)
      = some [("/a", .put, .blank)] := by decide +kernel
  obtain ⟨d, hparse, hd⟩ := exists_of_map_toOption hpaths
  obtain ⟨api, hread, hapi⟩ := exists_of_map_toOption hoperations
  refine ⟨d, api, hparse, hread, hd, hapi, fun hall => ?_⟩
  have hlength := congrArg List.length hd
  rw [List.length_map, hall.length_eq, hapi] at hlength
  exact absurd hlength (by decide)

end WorkerGen
