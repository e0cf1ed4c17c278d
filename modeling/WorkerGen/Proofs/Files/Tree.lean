import Mathlib
import WorkerGen.Files.Tree
import WorkerGen.Proofs.Dictionary

/-!
# What a change of a tree changes

There are two views of a tree.  `at?` gives the whole node at a location, and `label?` what it is,
without what is below it.  Putting a node somewhere or taking one away changes labels there and
below and nowhere else (`label?_alterDir`), while whole nodes change at the location, below it and
above it (`at?_alterDir`), since a directory is made of its entries.  Statements about runs are
therefore in terms of labels, and whole nodes are compared only where one of them is moved.

Both putting and erasing are a change of one directory that concerns one of its names.  Their lemmas
are stated once for such a change, `alterDir`, with the change itself as a variable.

* `at?_put`, `at?_erase` — what stands at a location after it has been put there or taken away.
* `label?_put_leaf` — putting a file or an empty directory changes one label.
* `SameOff` — two trees differ at most at some locations and below.  It is reflexive, composes, and
  is widened to larger sets of locations, so a long run is judged by the locations that it touches
  and each step of it by its own.
-/

namespace WorkerGen

/-! ## Entries -/

lemma lookup_filter_ne {α : Type} (name k : String) : ∀ entries : List (String × α),
    (entries.filter fun e => e.1 != name).lookup k
      = if k = name then none else entries.lookup k
  | [] => by simp
  | (k', v) :: rest => by
      by_cases hk' : k' = name
      · subst hk'
        rw [List.filter_cons_of_neg (by simp), lookup_filter_ne k' k rest]
        by_cases hk : k = k'
        · simp [hk]
        · simp [hk, List.lookup_cons, beq_eq_false_iff_ne.mpr hk]
      · rw [List.filter_cons_of_pos (by simpa using hk'), List.lookup_cons, List.lookup_cons,
          lookup_filter_ne name k rest]
        by_cases hk : k = k'
        · subst hk
          simp [hk']
        · simp [beq_eq_false_iff_ne.mpr hk]

namespace FileTree

/-! ## Nodes at locations

A location is followed down from the root, so what stands at a longer one is found from what stands
at a shorter one (`at?_append`), and above a node there are directories. -/

@[simp] lemma at?_nil (root : FileTree) : root.at? [] = some root := by
  rw [at?]

lemma at?_cons (root : FileTree) (name : String) (l : Location) :
    root.at? (name :: l) = (root.child? name).bind (·.at? l) := by
  rw [at?]

lemma at?_append (root : FileTree) : ∀ l m : Location,
    root.at? (l ++ m) = (root.at? l).bind (·.at? m)
  | [], m => by simp
  | name :: l, m => by
      rw [List.cons_append, at?_cons, at?_cons]
      cases root.child? name with
      | none => rfl
      | some child => exact at?_append child l m

lemma at?_concat (root : FileTree) (l : Location) (name : String) :
    root.at? (l ++ [name]) = (root.at? l).bind (child? name) := by
  rw [at?_append]
  cases root.at? l with
  | none => rfl
  | some node => cases h : node.child? name <;> simp [at?_cons, h]

/-- Whether there is a directory at a location. -/
def IsDir (root : FileTree) (l : Location) : Prop := ∃ entries, root.at? l = some (.dir entries)

/-- What is above a node is a directory. -/
lemma isDir_of_at? {root : FileTree} {l : Location} {name : String} {rest : Location}
    {node : FileTree} (h : root.at? (l ++ name :: rest) = some node) : root.IsDir l := by
  rw [at?_append] at h
  obtain ⟨above, habove, h⟩ := Option.bind_eq_some_iff.mp h
  cases above with
  | dir entries => exact ⟨entries, habove⟩
  | file _ | link _ => simp [at?_cons, child?] at h

lemma IsDir.above {root : FileTree} {l m : Location} (h : root.IsDir m) (hl : l <+: m) :
    root.IsDir l := by
  obtain ⟨rest, rfl⟩ := hl
  obtain ⟨entries, h⟩ := h
  cases rest with
  | nil => rw [List.append_nil] at h; exact ⟨entries, h⟩
  | cons name rest => exact isDir_of_at? h

/-- A directory is empty if nothing is in it. -/
lemma at?_eq_dir_nil {root : FileTree} {l : Location} (hdir : root.IsDir l)
    (hnone : ∀ name, root.at? (l ++ [name]) = none) : root.at? l = some (.dir []) := by
  obtain ⟨entries, hat⟩ := hdir
  cases entries with
  | nil => exact hat
  | cons entry rest =>
      have hentry := hnone entry.1
      rw [at?_concat, hat, Option.bind_some, child?, List.lookup_cons, beq_self_eq_true] at hentry
      exact absurd hentry (by simp)

/-! ## Changing a directory

A change of a directory is seen at three kinds of locations: at those it is below of, at those below
it, and at all others, where nothing is different. -/

/-- A change of a directory below another is a change of that other. -/
lemma at?_alterDir_append (change : List (String × FileTree) → List (String × FileTree)) :
    ∀ (d e : Location) (root : FileTree), (root.alterDir change (d ++ e)).at? d
      = (root.at? d).map (·.alterDir change e)
  | [], e, root => by simp
  | name :: d, e, .file _ => by rw [List.cons_append, alterDir.eq_3] <;> simp [at?_cons, child?]
  | name :: d, e, .link _ => by rw [List.cons_append, alterDir.eq_3] <;> simp [at?_cons, child?]
  | name :: d, e, .dir entries => by
      rw [List.cons_append, alterDir]
      cases h : entries.lookup name with
      | none => simp [at?_cons, child?, h]
      | some child =>
          simp [at?_cons, child?, lookup_insertSorted, h, at?_alterDir_append change d e child]

/-- What is neither above a directory nor below it is left alone by a change of it. -/
lemma at?_alterDir_of_apart (change : List (String × FileTree) → List (String × FileTree)) :
    ∀ {d l : Location} (root : FileTree), ¬ d <+: l → ¬ l <+: d →
      (root.alterDir change d).at? l = root.at? l
  | [], l, _, h, _ => absurd List.nil_prefix h
  | _ :: _, [], _, _, h => absurd List.nil_prefix h
  | n :: d, m :: l, .file _, _, _ => by rw [alterDir.eq_3] <;> simp
  | n :: d, m :: l, .link _, _, _ => by rw [alterDir.eq_3] <;> simp
  | n :: d, m :: l, .dir entries, hd, hl => by
      rw [alterDir]
      cases h : entries.lookup n with
      | none => rfl
      | some child =>
          rw [at?_cons, at?_cons, child?, child?, lookup_insertSorted]
          by_cases hmn : m = n
          · subst hmn
            rw [List.cons_prefix_cons] at hd hl
            simpa [h] using at?_alterDir_of_apart change child (fun hp => hd ⟨rfl, hp⟩)
              fun hp => hl ⟨rfl, hp⟩
          · rw [if_neg hmn]

/-! ## Labels

Of a directory the label is only that it is one.  The label of what is above a change stays the same
therefore, and only labels below the changed directory can be different. -/

/-- What a node is, without what is below it. -/
inductive Label where
  | file (content : ByteArray)
  | link (target : Path)
  | dir
deriving DecidableEq

/-- What a node is, without what is below it. -/
def label : FileTree → Label
  | .file content => .file content
  | .link target => .link target
  | .dir _ => .dir

/-- What stands at a location, without what is below it. -/
def label? (root : FileTree) (l : Location) : Option Label := (root.at? l).map label

lemma label?_eq_dir_iff {root : FileTree} {l : Location} :
    root.label? l = some .dir ↔ root.IsDir l := by
  rw [label?, IsDir]
  cases root.at? l with
  | none => simp
  | some node => cases node <;> simp [label]

lemma label?_eq_link_iff {root : FileTree} {l : Location} {target : Path} :
    root.label? l = some (.link target) ↔ root.at? l = some (.link target) := by
  rw [label?]
  cases root.at? l with
  | none => simp
  | some node => cases node <;> simp [label]

lemma label?_eq_none_iff {root : FileTree} {l : Location} :
    root.label? l = none ↔ root.at? l = none := by
  simp [label?]

lemma label?_append (root : FileTree) (l m : Location) :
    root.label? (l ++ m) = (root.at? l).bind (·.label? m) := by
  rw [label?, at?_append]
  cases root.at? l <;> rfl

/-- A change of a directory keeps what it is, and what is above it. -/
lemma label?_alterDir_of_prefix
    (change : List (String × FileTree) → List (String × FileTree)) {d l : Location}
    (root : FileTree) (h : l <+: d) : (root.alterDir change d).label? l = root.label? l := by
  obtain ⟨e, rfl⟩ := h
  have hlabel : ∀ node : FileTree, (node.alterDir change e).label = node.label := by
    intro node
    cases node with
    | file _ | link _ => rw [alterDir.eq_3] <;> simp
    | dir entries =>
        cases e with
        | nil => rfl
        | cons name e => rw [alterDir]; cases entries.lookup name <;> rfl
  rw [label?, label?, at?_alterDir_append, Option.map_map]
  congr 1
  exact funext hlabel

/-- What a directory's entries are after a change of it. -/
lemma at?_alterDir_cons (change : List (String × FileTree) → List (String × FileTree))
    (d : Location) (name : String) (rest : Location) {root : FileTree}
    {entries : List (String × FileTree)} (h : root.at? d = some (.dir entries)) :
    (root.alterDir change d).at? (d ++ name :: rest)
      = ((change entries).lookup name).bind (·.at? rest) := by
  have hself := at?_alterDir_append change d [] root
  rw [List.append_nil, h] at hself
  rw [at?_append, hself]
  simp [alterDir, at?_cons, child?]

/-- Where there is no directory, nothing is changed. -/
lemma alterDir_eq_self (change : List (String × FileTree) → List (String × FileTree))
    {d l : Location} {root : FileTree} (h : ¬ root.IsDir d) (hl : d <+: l) :
    (root.alterDir change d).at? l = root.at? l := by
  obtain ⟨rest, rfl⟩ := hl
  have hself := at?_alterDir_append change d [] root
  rw [List.append_nil] at hself
  rw [at?_append, at?_append, hself]
  cases hat : root.at? d with
  | none => rfl
  | some node =>
      cases node with
      | dir entries => exact absurd ⟨entries, hat⟩ h
      | file _ | link _ => rfl

/-! ## Putting and erasing

Both concern one name of a directory and leave its other names as they are, which is all that the
lemmas on locations elsewhere ask for.  Where there is no directory neither changes anything. -/

section
variable {root : FileTree} {d l : Location} {name : String}

/-- A location below a directory but not under one of its names is under another. -/
lemma exists_of_prefix_of_not_prefix (hd : d <+: l) (h : ¬ d ++ [name] <+: l) :
    l = d ∨ ∃ m rest, m ≠ name ∧ l = d ++ m :: rest := by
  obtain ⟨rest, rfl⟩ := hd
  cases rest with
  | nil => exact .inl (List.append_nil d)
  | cons m rest =>
      refine .inr ⟨m, rest, fun hm => h ?_, rfl⟩
      exact ⟨rest, by simp [hm]⟩

/-- A change of a directory that concerns one of its names leaves the others alone. -/
lemma label?_alterDir {change : List (String × FileTree) → List (String × FileTree)}
    (hchange : ∀ entries m, m ≠ name → (change entries).lookup m = entries.lookup m)
    (h : ¬ d ++ [name] <+: l) : (root.alterDir change d).label? l = root.label? l := by
  by_cases hdl : d <+: l
  · obtain rfl | ⟨m, rest, hm, rfl⟩ := exists_of_prefix_of_not_prefix hdl h
    · exact label?_alterDir_of_prefix change root (List.prefix_refl l)
    · by_cases hdir : root.IsDir d
      · obtain ⟨entries, hentries⟩ := hdir
        rw [label?, label?, at?_alterDir_cons change d m rest hentries, hchange entries m hm,
          at?_append, hentries]
        simp [at?_cons, child?]
      · rw [label?, label?, alterDir_eq_self change hdir hdl]
  · by_cases hld : l <+: d
    · exact label?_alterDir_of_prefix change root hld
    · rw [label?, label?, at?_alterDir_of_apart change root hdl hld]

/-- The same for whole nodes, apart from those above. -/
lemma at?_alterDir {change : List (String × FileTree) → List (String × FileTree)}
    (hchange : ∀ entries m, m ≠ name → (change entries).lookup m = entries.lookup m)
    (h : ¬ d ++ [name] <+: l) (hl : ¬ l <+: d ++ [name]) :
    (root.alterDir change d).at? l = root.at? l := by
  have hld : ¬ l <+: d := fun hp => hl (hp.trans (List.prefix_append d [name]))
  by_cases hdl : d <+: l
  · obtain rfl | ⟨m, rest, hm, rfl⟩ := exists_of_prefix_of_not_prefix hdl h
    · exact absurd (List.prefix_refl l) hld
    · by_cases hdir : root.IsDir d
      · obtain ⟨entries, hentries⟩ := hdir
        rw [at?_alterDir_cons change d m rest hentries, hchange entries m hm, at?_append, hentries]
        simp [at?_cons, child?]
      · exact alterDir_eq_self change hdir hdl
  · exact at?_alterDir_of_apart change root hdl hld

/-- What is put into a directory stands there. -/
lemma at?_put (h : root.IsDir d) (node : FileTree) (rest : Location) :
    (root.put d name node).at? (d ++ name :: rest) = node.at? rest := by
  obtain ⟨entries, h⟩ := h
  rw [put, at?_alterDir_cons _ _ _ _ h, lookup_insertSorted, if_pos rfl, Option.bind_some]

lemma at?_put_self (h : root.IsDir d) (node : FileTree) :
    (root.put d name node).at? (d ++ [name]) = some node := by
  rw [at?_put h, at?_nil]

/-- What is erased is gone, with all that is below it. -/
lemma at?_erase (rest : Location) : (root.erase d name).at? (d ++ name :: rest) = none := by
  by_cases hdir : root.IsDir d
  · obtain ⟨entries, h⟩ := hdir
    rw [erase, at?_alterDir_cons _ _ _ _ h, lookup_filter_ne, if_pos rfl, Option.bind_none]
  · rw [erase, alterDir_eq_self _ hdir (List.prefix_append d _)]
    cases hat : root.at? (d ++ name :: rest) with
    | none => rfl
    | some node => exact absurd (isDir_of_at? hat) hdir

/-- A change of a directory below another, seen from there. -/
lemma at?_put_append (e : Location) (node : FileTree) :
    (root.put (d ++ e) name node).at? d = (root.at? d).map (·.put e name node) :=
  at?_alterDir_append _ d e root

/-- Whether there is nothing below a node. -/
def IsLeaf (node : FileTree) : Prop := ∀ rest, rest ≠ [] → node.at? rest = none

lemma isLeaf_file (content : ByteArray) : (file content).IsLeaf
  | [], h => absurd rfl h
  | name :: rest, _ => by simp [at?_cons, child?]

lemma isLeaf_dir_nil : (dir []).IsLeaf
  | [], h => absurd rfl h
  | name :: rest, _ => by simp [at?_cons, child?]

/-- Putting a leaf where there is nothing, or another leaf, changes one label. -/
lemma label?_put_leaf (hd : root.IsDir d) {node : FileTree} (hnode : node.IsLeaf)
    (hold : ∀ old, root.at? (d ++ [name]) = some old → old.IsLeaf) (l : Location) :
    (root.put d name node).label? l
      = if l = d ++ [name] then some node.label else root.label? l := by
  split_ifs with hl
  · rw [hl, label?, at?_put_self hd, Option.map_some]
  · by_cases hbelow : d ++ [name] <+: l
    · obtain ⟨rest, rfl⟩ := hbelow
      have hrest : rest ≠ [] := fun h => hl (by rw [h, List.append_nil])
      rw [label?_append, label?_append, at?_put_self hd, Option.bind_some, label?, hnode rest hrest]
      cases hat : root.at? (d ++ [name]) with
      | none => rfl
      | some old => rw [Option.bind_some, label?, hold old hat rest hrest]
    · refine label?_alterDir (fun entries m (hm : m ≠ name) => ?_) hbelow
      rw [lookup_insertSorted, if_neg hm]

end

/-! ## Trees that differ at some locations only

`SameOff` is about labels and not about whole nodes, so that what is above a touched location does
not count as touched. -/

/-- Two trees differ at most at the given locations and below. -/
structure SameOff (touched : List Location) (r r' : FileTree) : Prop where
  /-- Elsewhere everything is what it was. -/
  label? : ∀ l, (∀ x ∈ touched, ¬ x <+: l) → r'.label? l = r.label? l
  /-- What is not above any of the locations either has kept all that is below it. -/
  at? : ∀ l, (∀ x ∈ touched, ¬ x <+: l ∧ ¬ l <+: x) → r'.at? l = r.at? l

namespace SameOff

variable {touched more : List Location} {r r' r'' : FileTree}

lemma refl (touched : List Location) (r : FileTree) : SameOff touched r r :=
  ⟨fun _ _ => rfl, fun _ _ => rfl⟩

lemma trans (h : SameOff touched r r') (h' : SameOff touched r' r'') : SameOff touched r r'' :=
  ⟨fun l hl => (h'.label? l hl).trans (h.label? l hl),
    fun l hl => (h'.at? l hl).trans (h.at? l hl)⟩

/-- Whoever touches what is below some locations touches at most these. -/
lemma widen (h : SameOff touched r r') (hmore : ∀ x ∈ touched, ∃ y ∈ more, y <+: x) :
    SameOff more r r' := by
  have hbelow : ∀ l, (∀ y ∈ more, ¬ y <+: l) → ∀ x ∈ touched, ¬ x <+: l := by
    intro l hl x hx hxl
    obtain ⟨y, hy, hyx⟩ := hmore x hx
    exact hl y hy (hyx.trans hxl)
  refine ⟨fun l hl => h.label? l (hbelow l hl), fun l hl => h.at? l fun x hx => ⟨?_, fun hlx => ?_⟩⟩
  · exact hbelow l (fun y hy => (hl y hy).1) x hx
  · obtain ⟨y, hy, hyx⟩ := hmore x hx
    rcases List.prefix_or_prefix_of_prefix hyx hlx with hyl | hly
    · exact (hl y hy).1 hyl
    · exact (hl y hy).2 hly

/-- A change of a directory that concerns one of its names touches that name only. -/
lemma alterDir {change : List (String × FileTree) → List (String × FileTree)} {name : String}
    (hchange : ∀ entries m, m ≠ name → (change entries).lookup m = entries.lookup m)
    (r : FileTree) (d : Location) : SameOff [d ++ [name]] r (r.alterDir change d) := by
  constructor
  · intro l hl
    exact label?_alterDir hchange (hl _ (List.mem_singleton_self _))
  · intro l hl
    obtain ⟨h, hl⟩ := hl _ (List.mem_singleton_self _)
    exact at?_alterDir hchange h hl

lemma put (r : FileTree) (d : Location) (name : String) (node : FileTree) :
    SameOff [d ++ [name]] r (r.put d name node) :=
  alterDir (fun entries m hm => by rw [lookup_insertSorted, if_neg hm]) r d

lemma erase (r : FileTree) (d : Location) (name : String) :
    SameOff [d ++ [name]] r (r.erase d name) :=
  alterDir (fun entries m hm => by rw [lookup_filter_ne, if_neg hm]) r d

lemma isDir (h : SameOff touched r r') {l : Location} (hl : ∀ x ∈ touched, ¬ x <+: l) :
    r'.IsDir l ↔ r.IsDir l := by
  rw [← label?_eq_dir_iff, ← label?_eq_dir_iff, h.label? l hl]

end SameOff

/-- What is put in the place of something that has just been put there is all that counts. -/
lemma label?_put_put {root : FileTree} {d : Location} {name : String} (hd : root.IsDir d)
    (node node' : FileTree) (l : Location) :
    ((root.put d name node).put d name node').label? l = (root.put d name node').label? l := by
  have hd' : (root.put d name node).IsDir d := by
    refine ((SameOff.put root d name node).isDir fun x hx hxd => ?_).mpr hd
    rw [List.mem_singleton.mp hx] at hxd
    exact absurd hxd.length_le (by simp)
  by_cases hbelow : d ++ [name] <+: l
  · obtain ⟨rest, rfl⟩ := hbelow
    rw [label?_append, label?_append, at?_put_self hd', at?_put_self hd]
  · have hoff : ∀ x ∈ [d ++ [name]], ¬x <+: l := by simpa using hbelow
    rw [(SameOff.put _ d name node').label? l hoff, (SameOff.put root d name node).label? l hoff,
      (SameOff.put root d name node').label? l hoff]

end FileTree

end WorkerGen
