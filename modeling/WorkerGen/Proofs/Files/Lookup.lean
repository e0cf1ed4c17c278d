import Mathlib
import WorkerGen.Proofs.Files.Path
import WorkerGen.Proofs.Files.Tree

/-!
# Where paths lead

A path is followed name by name, through directories and links.  What it leads to is known from the
texts of the path and from what the nodes on its way are; the contents of files and all that is
elsewhere play no part.  This module turns that into lemmas which compare two trees, so that a run
of a program is judged by what it has done to the nodes on the ways of its paths.

The recursion that follows a path is over the names for one walk and over the number of links for
the walks.  Proofs about it do not follow that recursion.  `LeadsTo` is the relation behind it: one
walk after another, each but the last up to a link.  `walkThrough_eq_ok_iff` says that the two
agree, and the lemmas that compare trees are by induction on `LeadsTo`, with the lemma for one walk
at each step.

* `walkThrough_of_lost` — a tree that has lost some nodes leads to the same place or stops at one
  that is missing.  It never leads elsewhere, since a node on the way is a directory or a link, and
  neither has been put in the place of another.
* `walkThrough_common` — a way that two trees share is one of every tree that has what both have.
  It is what is left of a way where something on it has been taken away and put back.
* `walkThrough_linkless` — below a directory without links a path leads where its names say.
* `Reaches` — names lead from one directory to another.  It is what other modules speak of: it is
  `unique`, it is kept by whatever `Keeps` the way, and `not_of_absent` and `not_below_empty` say
  what cannot be reached.
* `place_eq_ok_iff` and `standing_congr` — where a path leads, as a whole, and what stands there.

A name that is too long is not looked for, whether or not something stands there, so that lemmas
which lead a path on ask for names that are short (`notLong_of_mem`).
-/

namespace WorkerGen

namespace FileTree

/-- Whether a node can be passed on the way to another. -/
def Label.IsWay : Label → Prop
  | .dir | .link _ => True
  | .file _ => False

/-! ## One name after another

A single walk ends in one of three ways: it arrives, it meets a fault, or it comes to a link with
names still to follow.  `walk_cons_name` gives the step to a name by the label that stands there,
and the two lemmas behind it are by induction on the names with that step. -/

section
variable {root r r' r'' : FileTree}

lemma walk_cons_current (root : FileTree) (base : Location) (rest : List String) :
    root.walk base ("." :: rest) = root.walk base rest := by
  rw [walk, if_pos rfl]

lemma walk_cons_parent (root : FileTree) (base : Location) (rest : List String) :
    root.walk base (".." :: rest) = root.walk base.dropLast rest := by
  rw [walk, if_neg (by decide), if_pos rfl]

/-- A step to a name, by what stands there. -/
lemma walk_cons_name {name : String} (hdot : name ≠ ".") (hdots : name ≠ "..") (base : Location)
    (rest : List String) : root.walk base (name :: rest) =
      if isLong name then .fault .invalidFilename
      else match root.label? (base ++ [name]) with
        | none => .fault .notFound
        | some (.file _) => .fault .notADirectory
        | some (.link target) => .atLink base target rest
        | some .dir => root.walk (base ++ [name]) rest := by
  rw [walk, if_neg hdot, if_neg hdots, label?]
  split_ifs
  · rfl
  · cases root.at? (base ++ [name]) with
    | none => rfl
    | some node => cases node <;> rfl

/-- A tree that has lost some of the nodes on a way leads along it or stops at a missing one. -/
lemma walk_of_lost
    (hlost : ∀ l x, r.label? l = some x → x.IsWay → r'.label? l = some x ∨ r'.label? l = none) :
    ∀ (names : List String) (base : Location), (∀ reason, r.walk base names ≠ .fault reason) →
      r'.walk base names = r.walk base names ∨ r'.walk base names = .fault .notFound
  | [], base, _ => .inl rfl
  | name :: rest, base, h => by
      by_cases hdot : name = "."
      · subst hdot
        rw [walk_cons_current] at h ⊢
        rw [walk_cons_current]
        exact walk_of_lost hlost rest base h
      by_cases hdots : name = ".."
      · subst hdots
        rw [walk_cons_parent] at h ⊢
        rw [walk_cons_parent]
        exact walk_of_lost hlost rest base.dropLast h
      rw [walk_cons_name hdot hdots] at h ⊢
      rw [walk_cons_name hdot hdots]
      split_ifs at h ⊢ with hlong
      · exact .inl rfl
      · cases hl : r.label? (base ++ [name]) with
        | none => rw [hl] at h; exact absurd rfl (h .notFound)
        | some x =>
            rw [hl] at h
            cases x with
            | file content => exact absurd rfl (h .notADirectory)
            | link target =>
                rcases hlost _ _ hl trivial with hl' | hl' <;> rw [hl']
                · exact .inl rfl
                · exact .inr rfl
            | dir =>
                rcases hlost _ _ hl trivial with hl' | hl' <;> rw [hl']
                · exact walk_of_lost hlost rest (base ++ [name]) h
                · exact .inr rfl

/-- A way that two trees share is one of every tree that has what both have. -/
lemma walk_common
    (hlost : ∀ l x, r.label? l = some x → x.IsWay → r'.label? l = some x ∨ r'.label? l = none)
    (hcommon : ∀ l x, r.label? l = some x → x.IsWay → r'.label? l = some x →
      r''.label? l = some x) :
    ∀ (names : List String) (base : Location), (∀ reason, r.walk base names ≠ .fault reason) →
      (∀ reason, r'.walk base names ≠ .fault reason) →
      r''.walk base names = r.walk base names
  | [], base, _, _ => rfl
  | name :: rest, base, h, h' => by
      by_cases hdot : name = "."
      · subst hdot
        rw [walk_cons_current] at h h' ⊢
        rw [walk_cons_current]
        exact walk_common hlost hcommon rest base h h'
      by_cases hdots : name = ".."
      · subst hdots
        rw [walk_cons_parent] at h h' ⊢
        rw [walk_cons_parent]
        exact walk_common hlost hcommon rest base.dropLast h h'
      rw [walk_cons_name hdot hdots] at h h' ⊢
      rw [walk_cons_name hdot hdots]
      split_ifs at h h' ⊢ with hlong
      · rfl
      · cases hl : r.label? (base ++ [name]) with
        | none => rw [hl] at h; exact absurd rfl (h .notFound)
        | some x =>
            rw [hl] at h
            cases x with
            | file content => exact absurd rfl (h .notADirectory)
            | link target =>
                rcases hlost _ _ hl trivial with hl' | hl' <;> rw [hl'] at h'
                · rw [hcommon _ _ hl trivial hl']
                · exact absurd rfl (h' .notFound)
            | dir =>
                rcases hlost _ _ hl trivial with hl' | hl' <;> rw [hl'] at h'
                · rw [hcommon _ _ hl trivial hl']
                  exact walk_common hlost hcommon rest (base ++ [name]) h h'
                · exact absurd rfl (h' .notFound)

/-! ## Through links

A walk that stops at a link goes on from where the link points, with the names of the link before
those that are left, and with one link less to spare.  `Keeps` and `Lost` are the two ways in which
a change of a tree is described from here on: the first says that all on the way is still there, the
second that nothing has come to it. -/

/-- Walking on from a walk. -/
lemma walkThrough_eq (root : FileTree) (links : ℕ) (base : Location) (names : List String) :
    root.walkThrough links base names = match root.walk base names with
      | .arrived base => .ok base
      | .fault reason => .error reason
      | .atLink base target rest =>
        match links with
        | 0 => .error .filesystemLoop
        | links + 1 => root.walkThrough links (startOf base target) (target.names ++ rest) := by
  cases links <;> cases hwalk : root.walk base names <;> rw [walkThrough, hwalk]

/-- Whether names lead to a location: a walk arrives there, or it stops at a link and the names
behind that lead there. -/
inductive LeadsTo (root : FileTree) (x : Location) : ℕ → Location → List String → Prop
  | arrived {links : ℕ} {base : Location} {names : List String}
      (walk : root.walk base names = .arrived x) : LeadsTo root x links base names
  | atLink {links : ℕ} {base y : Location} {names rest : List String} {target : Path}
      (walk : root.walk base names = .atLink y target rest)
      (next : LeadsTo root x links (startOf y target) (target.names ++ rest)) :
      LeadsTo root x (links + 1) base names

lemma leadsTo_of_walkThrough {root : FileTree} {x : Location} : ∀ {links : ℕ} {base : Location}
    {names : List String}, root.walkThrough links base names = .ok x →
      LeadsTo root x links base names
  | links, base, names, h => by
      rw [walkThrough_eq] at h
      cases hw : root.walk base names with
      | arrived y =>
          rw [hw] at h
          exact .arrived (Except.ok.inj h ▸ hw)
      | fault reason => rw [hw] at h; cases h
      | atLink y target rest =>
          rw [hw] at h
          cases links with
          | zero => cases h
          | succ links => exact .atLink hw (leadsTo_of_walkThrough h)

lemma walkThrough_eq_ok_iff {root : FileTree} {x : Location} {links : ℕ} {base : Location}
    {names : List String} :
    root.walkThrough links base names = .ok x ↔ LeadsTo root x links base names := by
  refine ⟨leadsTo_of_walkThrough, fun h => ?_⟩
  induction h with
  | arrived walk => rw [walkThrough_eq, walk]
  | atLink walk next ih =>
      rw [walkThrough_eq, walk]
      exact ih

lemma not_fault_of_walkThrough {links : ℕ} {base x : Location} {names : List String}
    (h : r.walkThrough links base names = .ok x) : ∀ reason, r.walk base names ≠ .fault reason := by
  intro reason hfault
  cases walkThrough_eq_ok_iff.mp h with
  | arrived walk | atLink walk _ => exact absurd (walk.symm.trans hfault) (by simp)

/-! ### Trees that have lost nodes

A node on a way is found again or it is missing.  The hypotheses say so for directories and links
only, as no more is needed: a file is never on a way. -/

/-- **A tree that has lost some nodes leads to the same place or stops at a missing one.** -/
theorem walkThrough_of_lost
    (hlost : ∀ l x, r.label? l = some x → x.IsWay → r'.label? l = some x ∨ r'.label? l = none)
    {x : Location} {links : ℕ} {base : Location} {names : List String}
    (h : r.walkThrough links base names = .ok x) :
    r'.walkThrough links base names = .ok x ∨
      r'.walkThrough links base names = .error .notFound := by
  have hfault : ∀ {links base names}, r'.walk base names = .fault .notFound →
      r'.walkThrough links base names = .error .notFound := by
    intro links base names hwalk
    rw [walkThrough_eq, hwalk]
  replace h := walkThrough_eq_ok_iff.mp h
  induction h with
  | @arrived links base names walk =>
      rcases walk_of_lost hlost names base (by simp [walk]) with hsame | hmissing
      · exact .inl (walkThrough_eq_ok_iff.mpr (.arrived (hsame.trans walk)))
      · exact .inr (hfault hmissing)
  | @atLink links base y names rest target walk next ih =>
      rcases walk_of_lost hlost names base (by simp [walk]) with hsame | hmissing
      · rw [walkThrough_eq, hsame, walk]
        exact ih
      · exact .inr (hfault hmissing)

/-- **A way that two trees share is one of every tree that has what both have.** -/
theorem walkThrough_common
    (hlost : ∀ l x, r.label? l = some x → x.IsWay → r'.label? l = some x ∨ r'.label? l = none)
    (hcommon : ∀ l x, r.label? l = some x → x.IsWay → r'.label? l = some x →
      r''.label? l = some x) {x x' : Location} {links : ℕ} {base : Location} {names : List String}
    (h : r.walkThrough links base names = .ok x) (h' : r'.walkThrough links base names = .ok x') :
    r''.walkThrough links base names = .ok x := by
  replace h := walkThrough_eq_ok_iff.mp h
  induction h with
  | @arrived links base names walk =>
      have hsame := walk_common hlost hcommon names base (by simp [walk])
        (not_fault_of_walkThrough h')
      exact walkThrough_eq_ok_iff.mpr (.arrived (hsame.trans walk))
  | @atLink links base y names rest target walk next ih =>
      have hsame := walk_common hlost hcommon names base (by simp [walk])
        (not_fault_of_walkThrough h')
      have hsame' : r'.walk base names = r.walk base names :=
        walk_common hlost (fun _ _ _ _ h => h) names base (by simp [walk])
          (not_fault_of_walkThrough h')
      rw [walkThrough_eq, hsame', walk] at h'
      rw [walkThrough_eq, hsame, walk]
      exact ih h'

/-- Whether a tree has all that can be passed on the way in another. -/
def Keeps (r r' : FileTree) : Prop := ∀ l x, r.label? l = some x → x.IsWay → r'.label? l = some x

/-- A tree that keeps the way leads to the same place. -/
lemma Keeps.walkThrough (h : Keeps r r') {links : ℕ} {base x : Location} {names : List String}
    (hwalk : r.walkThrough links base names = .ok x) :
    r'.walkThrough links base names = .ok x :=
  walkThrough_common (fun _ _ hl _ => .inl hl) (fun l x hl hx _ => h l x hl hx) hwalk hwalk

/-- Where nothing or a file has stood, nothing has been on the way. -/
lemma SameOff.keeps {touched : List Location} (h : SameOff touched r r')
    (hnew : ∀ x ∈ touched, ∀ node, r.at? x = some node → ∃ content, node = .file content) :
    Keeps r r' := by
  intro l x hl hx
  rw [h.label? l, hl]
  rintro y hy ⟨rest, rfl⟩
  rw [label?_append] at hl
  cases hat : r.at? y with
  | none => rw [hat] at hl; exact absurd hl (by simp)
  | some node =>
      obtain ⟨content, rfl⟩ := hnew y hy node hat
      rw [hat, Option.bind_some] at hl
      cases rest with
      | nil =>
          obtain rfl : Label.file content = x := by simpa [FileTree.label?, label] using hl
          exact hx
      | cons name rest => simp [FileTree.label?, at?_cons, child?] at hl

/-- What is put where nothing or a file has stood does not get in the way. -/
lemma Keeps.put {d : Location} {name : String} {node : FileTree}
    (hnew : ∀ old, r.at? (d ++ [name]) = some old → ∃ content, old = .file content) :
    Keeps r (r.put d name node) :=
  (SameOff.put r d name node).keeps fun x hx => by rwa [List.mem_singleton.mp hx]

/-- Whether a tree has nothing but what another has. -/
def Lost (r r' : FileTree) : Prop := ∀ l, r'.label? l = r.label? l ∨ r'.label? l = none

lemma Lost.refl (r : FileTree) : Lost r r := fun _ => .inl rfl

lemma Lost.trans (h : Lost r r') (h' : Lost r' r'') : Lost r r'' := by
  intro l
  rcases h' l with hl' | hl'
  · rcases h l with hl | hl
    · exact .inl (hl'.trans hl)
    · exact .inr (hl'.trans hl)
  · exact .inr hl'

lemma Lost.erase (r : FileTree) (d : Location) (name : String) : Lost r (r.erase d name) := by
  intro l
  by_cases hl : d ++ [name] <+: l
  · obtain ⟨rest, rfl⟩ := hl
    rw [List.append_assoc, List.singleton_append]
    exact .inr (label?_eq_none_iff.mpr (at?_erase rest))
  · exact .inl ((SameOff.erase r d name).label? l (by simpa using hl))

/-- A tree that has lost some nodes leads to the same place, if to any. -/
lemma Lost.walkThrough (h : Lost r r') {links : ℕ} {base x y : Location} {names : List String}
    (hx : r.walkThrough links base names = .ok x) (hy : r'.walkThrough links base names = .ok y) :
    x = y := by
  rcases walkThrough_of_lost (fun l z hl _ => hl ▸ h l) hx with hwalk | hwalk
  · simpa using hwalk.symm.trans hy
  · exact absurd (hwalk.symm.trans hy) (by simp)

/-! ## The names that matter

A `.` inside of a path leads nowhere else.  Paths are therefore compared by the names that are left
without it, `Path.way`, and not by their texts. -/

/-- A walk whose rest holds no `.`. -/
def Walk.dropDots : Walk → Walk
  | .atLink base target rest => .atLink base target (rest.filter (· != "."))
  | walk => walk

lemma walk_filter (root : FileTree) : ∀ (names : List String) (base : Location),
    root.walk base (names.filter (· != ".")) = (root.walk base names).dropDots
  | [], base => rfl
  | name :: rest, base => by
      by_cases hdot : name = "."
      · subst hdot
        rw [List.filter_cons_of_neg (by simp), walk_cons_current, walk_filter root rest base]
      rw [List.filter_cons_of_pos (by simpa using hdot)]
      by_cases hdots : name = ".."
      · subst hdots
        rw [walk_cons_parent, walk_cons_parent, walk_filter root rest _]
      rw [walk_cons_name hdot hdots, walk_cons_name hdot hdots]
      split_ifs
      · rfl
      · cases root.label? (base ++ [name]) with
        | none => rfl
        | some x =>
            cases x with
            | file _ | link _ => rfl
            | dir => exact walk_filter root rest (base ++ [name])

/-- A `.` on the way does not matter. -/
lemma walkThrough_filter (root : FileTree) :
    ∀ (links : ℕ) (base : Location) (names : List String),
      root.walkThrough links base (names.filter (· != "."))
        = root.walkThrough links base names := by
  intro links
  induction links with
  | zero =>
      intro base names
      rw [walkThrough_eq, walk_filter, walkThrough_eq]
      cases root.walk base names <;> rfl
  | succ links ih =>
      intro base names
      rw [walkThrough_eq, walk_filter, walkThrough_eq]
      cases root.walk base names with
      | arrived base | fault reason => rfl
      | atLink base target rest =>
          have hrest := ih (startOf base target) (target.names ++ rest.filter (· != "."))
          have hall := ih (startOf base target) (target.names ++ rest)
          simp only [List.filter_append, List.filter_filter, Bool.and_self] at hrest hall
          exact hrest.symm.trans hall

/-! ## Walking on

Names are followed up to a point and on from there.  How many links have been spent up to the point
depends on the names before it, so the number that is left is found with the point
(`walkThrough_append`). -/

/-- A walk along some names and then others. -/
lemma walk_append (root : FileTree) (more : List String) : ∀ (names : List String)
    (base : Location), root.walk base (names ++ more) = match root.walk base names with
      | .arrived base => root.walk base more
      | .fault reason => .fault reason
      | .atLink base target rest => .atLink base target (rest ++ more)
  | [], base => rfl
  | name :: rest, base => by
      rw [List.cons_append]
      by_cases hdot : name = "."
      · subst hdot
        rw [walk_cons_current, walk_cons_current, walk_append root more rest base]
      by_cases hdots : name = ".."
      · subst hdots
        rw [walk_cons_parent, walk_cons_parent, walk_append root more rest base.dropLast]
      rw [walk_cons_name hdot hdots, walk_cons_name hdot hdots]
      split_ifs
      · rfl
      · cases root.label? (base ++ [name]) with
        | none => rfl
        | some x =>
            cases x with
            | file _ | link _ => rfl
            | dir => exact walk_append root more rest (base ++ [name])

/-- From where some names lead, others are followed with the links that are left. -/
lemma walkThrough_append {x : Location} {links : ℕ} {base : Location} {names : List String}
    (h : root.walkThrough links base names = .ok x) : ∃ left, ∀ more,
      root.walkThrough links base (names ++ more) = root.walkThrough left x more := by
  replace h := walkThrough_eq_ok_iff.mp h
  induction h with
  | @arrived links base names walk =>
      refine ⟨links, fun more => ?_⟩
      rw [walkThrough_eq, walk_append, walk, walkThrough_eq root links x more]
  | atLink walk next ih =>
      obtain ⟨left, hleft⟩ := ih
      refine ⟨left, fun more => ?_⟩
      rw [walkThrough_eq, walk_append, walk]
      dsimp only
      rw [← List.append_assoc]
      exact hleft more

/-- Whoever follows some names and then others has followed the first. -/
lemma exists_of_walkThrough_append {x : Location} {more : List String} {links : ℕ}
    {base : Location} {names : List String}
    (h : root.walkThrough links base (names ++ more) = .ok x) :
    ∃ y, root.walkThrough links base names = .ok y := by
  replace h := walkThrough_eq_ok_iff.mp h
  generalize hall : names ++ more = all at h
  induction h generalizing names with
  | @arrived links base all walk =>
      rw [← hall, walk_append] at walk
      cases hw : root.walk base names with
      | arrived y => exact ⟨y, walkThrough_eq_ok_iff.mpr (.arrived hw)⟩
      | fault reason | atLink y target rest => rw [hw] at walk; cases walk
  | @atLink links base y all rest target walk next ih =>
      rw [← hall, walk_append] at walk
      cases hw : root.walk base names with
      | arrived y => exact ⟨y, walkThrough_eq_ok_iff.mpr (.arrived hw)⟩
      | fault reason => rw [hw] at walk; cases walk
      | atLink y target rest =>
          rw [hw] at walk
          cases walk
          obtain ⟨z, hz⟩ := ih (List.append_assoc _ _ _)
          exact ⟨z, by rw [walkThrough_eq, hw]; exact hz⟩

/-- A walk ends at a directory, if it starts at one. -/
lemma isDir_of_walk : ∀ {names : List String} {base x : Location}, root.IsDir base →
    (root.walk base names = .arrived x → root.IsDir x) ∧
      ∀ target rest, root.walk base names = .atLink x target rest → root.IsDir x
  | [], base, x, hbase => by
      rw [walk]
      refine ⟨fun h => ?_, by simp⟩
      injection h with hx
      exact hx ▸ hbase
  | name :: names, base, x, hbase => by
      by_cases hdot : name = "."
      · subst hdot
        rw [walk_cons_current]
        exact isDir_of_walk hbase
      by_cases hdots : name = ".."
      · subst hdots
        rw [walk_cons_parent]
        exact isDir_of_walk (hbase.above (List.dropLast_prefix base))
      rw [walk_cons_name hdot hdots]
      split_ifs
      · simp
      · cases hl : root.label? (base ++ [name]) with
        | none => simp
        | some y =>
            cases y with
            | file content => simp
            | link target =>
                refine ⟨by simp, fun target rest h => ?_⟩
                injection h with hx
                exact hx ▸ hbase
            | dir => exact isDir_of_walk (label?_eq_dir_iff.mp hl)

lemma isDir_of_walkThrough {x : Location} {links : ℕ} {base : Location} {names : List String}
    (hbase : root.IsDir base) (h : root.walkThrough links base names = .ok x) : root.IsDir x := by
  replace h := walkThrough_eq_ok_iff.mp h
  induction h with
  | arrived walk => exact (isDir_of_walk hbase).1 walk
  | @atLink links base y names rest target walk next ih =>
      refine ih ?_
      rw [startOf]
      split_ifs
      · exact hbase.above List.nil_prefix
      · exact (isDir_of_walk hbase).2 target rest walk

/-! ## Below a directory without links

Without links, and without `..`, following names is appending them to a location.  Such a place is
where a build is put together before it is moved, and there texts can be compared in place of
ways. -/

/-- Whether no link stands at a location or below. -/
def Linkless (root : FileTree) (base : Location) : Prop :=
  ∀ l target, base <+: l → root.label? l ≠ some (.link target)

lemma Linkless.below {base l : Location} (h : root.Linkless base) (hl : base <+: l) :
    root.Linkless l :=
  fun m target hm => h m target (hl.trans hm)

/-- Names that are followed down to a directory, past `.` and back. -/
def IsStep (name : String) : Prop := name ≠ "." ∧ name ≠ ".."

/-- Names lead down where there is no link. -/
lemma walk_linkless : ∀ {names : List String} {base : Location}, root.IsDir base →
    root.Linkless base → (∀ name ∈ names, IsStep name) →
      (root.walk base names = .arrived (base ++ names) ∧ root.IsDir (base ++ names)) ∨
        ∃ reason, root.walk base names = .fault reason
  | [], base, hbase, _, _ => .inl ⟨by rw [List.append_nil]; rfl, by rwa [List.append_nil]⟩
  | name :: rest, base, hbase, hlinks, hsteps => by
      rw [List.forall_mem_cons] at hsteps
      rw [walk_cons_name hsteps.1.1 hsteps.1.2]
      split_ifs
      · exact .inr ⟨_, rfl⟩
      · cases hl : root.label? (base ++ [name]) with
        | none => exact .inr ⟨_, rfl⟩
        | some x =>
            cases x with
            | file content => exact .inr ⟨_, rfl⟩
            | link target => exact absurd hl (hlinks _ target (List.prefix_append base [name]))
            | dir =>
                have hrest := walk_linkless (label?_eq_dir_iff.mp hl)
                  (hlinks.below (List.prefix_append base [name])) hsteps.2
                rwa [List.append_assoc, List.singleton_append] at hrest

/-- **Below a directory without links a path leads where its names say.** -/
theorem walkThrough_linkless {links : ℕ} {base x : Location} {names : List String}
    (hbase : root.IsDir base) (hlinks : root.Linkless base) (hsteps : ∀ name ∈ names, IsStep name)
    (h : root.walkThrough links base names = .ok x) :
    x = base ++ names ∧ root.IsDir (base ++ names) := by
  rw [walkThrough_eq] at h
  rcases walk_linkless hbase hlinks hsteps with ⟨hwalk, hdir⟩ | ⟨reason, hwalk⟩
  · rw [hwalk] at h
    exact ⟨by simpa using h.symm, hdir⟩
  · rw [hwalk] at h
    exact absurd h (by simp)

/-- Names of directories, none of them too long, lead down to the last. -/
lemma walk_of_isDir : ∀ {names : List String} {base : Location}, root.IsDir (base ++ names) →
    (∀ name ∈ names, IsStep name ∧ isLong name = false) → ∀ more,
      root.walk base (names ++ more) = root.walk (base ++ names) more
  | [], base, _, _, more => by rw [List.nil_append, List.append_nil]
  | name :: rest, base, hdir, hsteps, more => by
      rw [List.forall_mem_cons] at hsteps
      obtain ⟨⟨hstep, hlong⟩, hrest⟩ := hsteps
      have hsplit : base ++ name :: rest = (base ++ [name]) ++ rest := by simp
      have hname : root.label? (base ++ [name]) = some .dir :=
        label?_eq_dir_iff.mpr (hdir.above (hsplit ▸ List.prefix_append _ _))
      rw [List.cons_append, walk_cons_name hstep.1 hstep.2, hlong, if_neg Bool.false_ne_true, hname]
      dsimp only
      rw [hsplit] at hdir ⊢
      exact walk_of_isDir hdir hrest more

lemma walkThrough_of_isDir {names : List String} {base : Location}
    (hdir : root.IsDir (base ++ names)) (hsteps : ∀ name ∈ names, IsStep name ∧ isLong name = false)
    (links : ℕ) (more : List String) :
    root.walkThrough links base (names ++ more) = root.walkThrough links (base ++ names) more := by
  rw [walkThrough_eq, walk_of_isDir hdir hsteps, ← walkThrough_eq]

end

/-! ## Reaching a directory

`Reaches` holds what a caller knows about a directory on a way: that the start is one, and that the
names lead on from there with all the links that a path may pass.  Its lemmas speak of names that
lead down, `IsStep`, where a `..` could leave what has been reached. -/

/-- Whether names lead from a directory to a location. -/
structure Reaches (root : FileTree) (start : Location) (names : List String) (x : Location) :
    Prop where
  isDir_start : root.IsDir start
  walk : root.walkThrough linkLimit start names = .ok x

namespace Reaches

variable {root r r' : FileTree} {start x y : Location} {names more : List String}

lemma isDir (h : root.Reaches start names x) : root.IsDir x := isDir_of_walkThrough h.1 h.2

lemma unique (h : root.Reaches start names x) (h' : root.Reaches start names y) : x = y := by
  have hxy := h.walk.symm.trans h'.walk
  simpa using hxy

lemma keeps (h : r.Reaches start names x) (hkeeps : Keeps r r') : r'.Reaches start names x := by
  refine ⟨?_, hkeeps.walkThrough h.walk⟩
  rw [← label?_eq_dir_iff]
  exact hkeeps start .dir (label?_eq_dir_iff.mpr h.isDir_start) trivial

/-- Whoever has followed some names has followed the first of them. -/
lemma of_append (h : root.Reaches start (names ++ more) x) : ∃ y, root.Reaches start names y := by
  obtain ⟨y, hy⟩ := exists_of_walkThrough_append h.walk
  exact ⟨y, h.isDir_start, hy⟩

/-- Names of directories lead on. -/
lemma append (h : root.Reaches start names x) (hdir : root.IsDir (x ++ more))
    (hmore : ∀ name ∈ more, IsStep name ∧ isLong name = false) :
    root.Reaches start (names ++ more) (x ++ more) := by
  refine ⟨h.isDir_start, ?_⟩
  obtain ⟨left, hleft⟩ := walkThrough_append h.walk
  have hwalk := walkThrough_of_isDir hdir hmore left []
  rw [List.append_nil] at hwalk
  rw [hleft, hwalk, walkThrough_eq]
  rfl

/-- Where there are no links, names lead down. -/
lemma of_linkless (h : root.Reaches start (names ++ more) y) (hx : root.Reaches start names x)
    (hlinks : root.Linkless x) (hmore : ∀ name ∈ more, IsStep name) : y = x ++ more := by
  obtain ⟨left, hleft⟩ := walkThrough_append hx.walk
  have hwalk := h.walk
  rw [hleft] at hwalk
  exact (walkThrough_linkless hx.isDir hlinks hmore hwalk).1

/-- Nothing is reached through a name that is not there. -/
lemma not_of_absent {name : String} (h : root.Reaches start names x) (hname : IsStep name)
    (habsent : root.at? (x ++ [name]) = none) :
    ¬ root.Reaches start (names ++ name :: more) y := by
  intro hy
  obtain ⟨left, hleft⟩ := walkThrough_append h.walk
  have hwalk := hy.walk
  rw [hleft, walkThrough_eq, walk_cons_name hname.1 hname.2, label?_eq_none_iff.mpr habsent]
    at hwalk
  split_ifs at hwalk

/-- Nothing is reached below an empty directory. -/
lemma not_below_empty (h : root.Reaches start names x) (hempty : root.at? x = some (.dir []))
    (hne : more ≠ []) (hmore : ∀ name ∈ more, IsStep name) :
    ¬ root.Reaches start (names ++ more) y := by
  have hbelow : ∀ rest, rest ≠ [] → root.at? (x ++ rest) = none := by
    intro rest hrest
    rw [at?_append, hempty]
    exact isLeaf_dir_nil rest hrest
  have hlinks : root.Linkless x := by
    rintro _ target ⟨rest, rfl⟩ hlink
    rw [label?_eq_link_iff] at hlink
    cases rest with
    | nil => rw [List.append_nil, hempty] at hlink; exact absurd hlink (by simp)
    | cons t rest => rw [hbelow _ (by simp)] at hlink; exact absurd hlink (by simp)
  intro hy
  obtain ⟨entries, hdir⟩ := hy.of_linkless h hlinks hmore ▸ hy.isDir
  rw [hbelow more hne] at hdir
  exact absurd hdir (by simp)

/-- A name that something is reached through is not too long. -/
lemma notLong {name : String} (h : root.Reaches start (names ++ [name]) x) (hname : IsStep name) :
    isLong name = false := by
  obtain ⟨y, hy⟩ := h.of_append
  obtain ⟨left, hleft⟩ := walkThrough_append hy.walk
  have hwalk := h.walk
  rw [hleft, walkThrough_eq, walk_cons_name hname.1 hname.2] at hwalk
  by_contra hlong
  rw [Bool.not_eq_false] at hlong
  rw [if_pos hlong] at hwalk
  exact absurd hwalk (by simp)

/-- None of the names that something is reached through is too long. -/
lemma notLong_of_mem (h : root.Reaches start names x) (hsteps : ∀ name ∈ names, IsStep name) :
    ∀ name ∈ names, isLong name = false := by
  intro name hmem
  obtain ⟨before, after, rfl⟩ := List.append_of_mem hmem
  rw [List.append_cons] at h
  obtain ⟨y, hy⟩ := h.of_append
  exact hy.notLong (hsteps name hmem)

/-- A way that does not lead through a node is kept whatever becomes of that node. -/
lemma of_erase {D : Location} {name : String} (h : (root.erase D name).Reaches start names x)
    (hsame : ∀ l, ¬ D ++ [name] <+: l → r.label? l = root.label? l) : r.Reaches start names x := by
  refine h.keeps fun l y hl _ => ?_
  have hoff : ¬ D ++ [name] <+: l := by
    rintro ⟨rest, rfl⟩
    rw [List.append_assoc, List.singleton_append, label?_eq_none_iff.mpr (at?_erase rest)] at hl
    exact absurd hl (by simp)
  rw [hsame l hoff, ← (SameOff.erase root D name).label? l (by simpa using hoff), hl]

/-- **What has not been lost from two trees is a way in a third.** -/
theorem common (h : root.Reaches start names x) (h' : r.Reaches start names x)
    (hlost : ∀ l y, root.label? l = some y → y.IsWay → r.label? l = some y ∨ r.label? l = none)
    (hcommon : ∀ l y, root.label? l = some y → y.IsWay → r.label? l = some y →
      r'.label? l = some y) : r'.Reaches start names x := by
  refine ⟨?_, walkThrough_common hlost hcommon h.walk h'.walk⟩
  rw [← label?_eq_dir_iff]
  exact hcommon start .dir (label?_eq_dir_iff.mpr h.isDir_start) trivial
    (label?_eq_dir_iff.mpr h'.isDir_start)

end Reaches

/-! ## Places

The last name of a path is not followed but looked at.  A path has a place where its other names
lead to a directory; what is done with the place depends on whether its last step is a name
(`EndsIn`) and on a slash behind it.  `standing` is what stands at the place, and is what the
statements about builds are about. -/

end FileTree

namespace Path

/-- Whether a path ends in the name of an entry. -/
structure EndsIn (p : Path) (name : String) : Prop where
  getLast? : p.names.getLast? = some name
  isStep : FileTree.IsStep name

/-- Whether a path that ends in the name of an entry is one that the system looks for. -/
structure IsLegal (p : Path) (name : String) : Prop extends EndsIn p name where
  check : p.check = .ok ()
  notLong : FileTree.isLong name = false

variable {p : Path} {name : String}

lemma way_eq_of_getLast? (h : p.names.getLast? = some name) (hstep : FileTree.IsStep name) :
    p.way = p.names.dropLast.filter (· != ".") ++ [name] := by
  have hnames := List.dropLast_append_getLast? name h
  conv_lhs => rw [way, ← hnames]
  rw [List.filter_append, List.filter_cons_of_pos (by simpa using hstep.1), List.filter_nil]

lemma IsName.isStep (h : IsName name) : FileTree.IsStep name := ⟨h.current, h.parent⟩

namespace EndsIn

variable (h : p.EndsIn name)
include h

lemma way_dropLast : p.way.dropLast = p.names.dropLast.filter (· != ".") := by
  rw [way_eq_of_getLast? h.getLast? h.isStep, List.dropLast_concat]

lemma way_eq : p.way = p.way.dropLast ++ [name] := by
  rw [h.way_dropLast]
  exact way_eq_of_getLast? h.getLast? h.isStep

lemma way_ne_nil : p.way ≠ [] := by
  rw [h.way_eq]
  simp

lemma unique {name' : String} (h' : p.EndsIn name') : name = name' := by
  have hlast := h.getLast?.symm.trans h'.getLast?
  simpa using hlast

end EndsIn

end Path

namespace FileTree

section
variable {root : FileTree} {base d : Location} {p : Path} {place : Place} {name : String}

/-! ### Places and what leads to them

`place_eq` opens the definition once.  From it come the two directions that are used: where a path
has a place its names have been followed, and where names are followed a path has a place. -/

lemma lastName_eq_name {last : Option String} (h : lastName last = .name name) :
    last = some name ∧ IsStep name := by
  rw [lastName.eq_def] at h
  split at h
  · exact absurd h (by simp)
  · exact absurd h (by simp)
  · exact absurd h (by simp)
  · next hdot hdots =>
      obtain rfl : _ = name := by simpa using h
      exact ⟨rfl, fun h => hdot (by rw [h]), fun h => hdots (by rw [h])⟩

lemma lastName_of_isStep (h : IsStep name) : lastName (some name) = .name name := by
  rw [lastName.eq_def]
  split
  · next hname => exact absurd hname (by simp)
  · next hname => exact absurd (by simpa using hname) h.1
  · next hname => exact absurd (by simpa using hname) h.2
  · next hname => simpa using hname.symm

/-- A place step by step. -/
lemma place_eq (root : FileTree) (base : Location) (p : Path) : root.place base p =
    match p.check, root.walkThrough linkLimit (startOf base p) p.names.dropLast,
      lastName p.names.getLast? with
    | .error reason, _, _ => .error reason
    | .ok _, .error reason, _ => .error reason
    | .ok _, .ok d, .name name =>
      if isLong name then .error .invalidFilename else .ok ⟨d, .name name, p.endsWithSlash⟩
    | .ok _, .ok d, last => .ok ⟨d, last, p.endsWithSlash⟩ := by
  rw [FileTree.place]
  cases p.check with
  | error reason => rfl
  | ok u =>
      dsimp only [bind, Except.bind, pure, Except.pure]
      cases root.walkThrough linkLimit (startOf base p) p.names.dropLast with
      | error reason => rfl
      | ok d =>
          dsimp only
          cases lastName p.names.getLast? with
          | root | current | parent => rfl
          | name text => dsimp only

/-- What has been followed and checked where a path has a place. -/
lemma place_eq_ok_iff : root.place base p = .ok place ↔ ∃ d, p.check = .ok () ∧
    root.walkThrough linkLimit (startOf base p) p.names.dropLast = .ok d ∧
      (∀ name, lastName p.names.getLast? = .name name → isLong name = false) ∧
        place = ⟨d, lastName p.names.getLast?, p.endsWithSlash⟩ := by
  rw [place_eq]
  cases p.check with
  | error reason => simp
  | ok u =>
      cases root.walkThrough linkLimit (startOf base p) p.names.dropLast with
      | error reason => simp
      | ok d =>
          cases lastName p.names.getLast? with
          | root | current | parent => simp [eq_comm (a := place)]
          | name text =>
              dsimp only
              split_ifs with hlong <;> simp [hlong, eq_comm (a := place)]

/-- Where a path leads that ends in the name of an entry. -/
lemma place_of_reaches (hp : p.IsLegal name)
    (h : root.Reaches (startOf base p) p.way.dropLast d) :
    root.place base p = .ok ⟨d, .name name, p.endsWithSlash⟩ := by
  have hwalk := h.walk
  rw [hp.way_dropLast, walkThrough_filter] at hwalk
  have hname : lastName p.names.getLast? = .name name := by
    rw [hp.getLast?, lastName_of_isStep hp.isStep]
  refine place_eq_ok_iff.mpr ⟨d, hp.check, hwalk, fun text htext => ?_, by rw [hname]⟩
  obtain rfl : name = text := by simpa [hname] using htext
  exact hp.notLong

/-- A path that leads to a name has come to the directory that it is in. -/
lemma walkThrough_of_place (h : root.place base p = .ok place) (hlast : place.last = .name name) :
    p.IsLegal name ∧ root.walkThrough linkLimit (startOf base p) p.way.dropLast = .ok place.dir ∧
      place.slash = p.endsWithSlash := by
  obtain ⟨d, hcheck, hwalk, hlong, rfl⟩ := place_eq_ok_iff.mp h
  obtain ⟨hnames, hstep⟩ := lastName_eq_name hlast
  have hlegal : p.IsLegal name := ⟨⟨hnames, hstep⟩, hcheck, hlong name hlast⟩
  refine ⟨hlegal, ?_, rfl⟩
  rw [hlegal.way_dropLast, walkThrough_filter]
  exact hwalk

lemma reaches_of_place (hstart : root.IsDir (startOf base p)) (h : root.place base p = .ok place)
    (hlast : place.last = .name name) :
    p.IsLegal name ∧ root.Reaches (startOf base p) p.way.dropLast place.dir :=
  have hplace := walkThrough_of_place h hlast
  ⟨hplace.1, hstart, hplace.2.1⟩

/-- The last name of a place is that of the path. -/
lemma last_of_place (hp : p.EndsIn name) (h : root.place base p = .ok place) :
    place.last = .name name := by
  obtain ⟨d, -, -, -, rfl⟩ := place_eq_ok_iff.mp h
  rw [hp.getLast?, lastName_of_isStep hp.isStep]

/-- A path that does not end in the name of an entry leads to a directory. -/
lemma isDir_location (hstart : root.IsDir (startOf base p)) (h : root.place base p = .ok place)
    (hlast : ∀ name, place.last ≠ .name name) : root.IsDir (location place) := by
  obtain ⟨d, -, hwalk, -, rfl⟩ := place_eq_ok_iff.mp h
  have hdir := isDir_of_walkThrough hstart hwalk
  rw [location]
  dsimp only at hlast ⊢
  cases hname : lastName p.names.getLast? with
  | root => exact hstart.above List.nil_prefix
  | current => exact hdir
  | parent => exact hdir.above (List.dropLast_prefix d)
  | name text => exact absurd hname (hlast text)

/-! ### What stands at a path

A request may follow a link at the end of a path or not.  Where there is none the two are the
same. -/

/-- Where there is no link a path leads to its place. -/
lemma finalPlace_of_not_link {links : ℕ} (h : root.place base p = .ok place)
    (hlink : ∀ target, root.nodeAt? place ≠ some (.link target)) :
    root.finalPlace links base p = .ok place := by
  rw [finalPlace.eq_def]
  dsimp only [bind, Except.bind, pure, Except.pure]
  rw [h]
  dsimp only
  cases hnode : root.nodeAt? place with
  | none => rfl
  | some node =>
      cases node with
      | file _ | dir _ => rfl
      | link target => exact absurd hnode (hlink target)

lemma finalPlace_of_error {links : ℕ} {reason : IoFault}
    (h : root.place base p = .error reason) :
    root.finalPlace links base p = .error reason := by
  rw [finalPlace.eq_def]
  dsimp only [bind, Except.bind]
  rw [h]

lemma locate_of_error {follow : Bool} {reason : IoFault} (h : root.place base p = .error reason) :
    root.locate follow base p = .error reason := by
  rw [locate]
  split_ifs
  · rw [finalPlace_of_error h]
    rfl
  · rw [h]
    rfl

/-- What a path leads to that is not followed through a link at its end. -/
lemma locate_of_place (h : root.place base p = .ok place)
    (hlink : p.endsWithSlash = true → ∀ target, root.nodeAt? place ≠ some (.link target)) :
    root.locate false base p = match root.nodeAt? place with
      | none => .error .notFound
      | some (.dir entries) => .ok (location place, .dir entries)
      | some node => if place.slash then .error .notADirectory else .ok (location place, node) := by
  rw [locate]
  by_cases hslash : p.endsWithSlash = true
  · rw [if_pos (by simp [hslash]), finalPlace_of_not_link h (hlink hslash)]
    rfl
  · rw [if_neg (by simp [hslash]), h]
    rfl

/-- What stands at a path; a link at its end is not followed. -/
def standing (root : FileTree) (base : Location) (p : Path) : Option FileTree :=
  match root.place base p with
  | .ok place => root.nodeAt? place
  | .error _ => none

lemma standing_of_place (h : root.place base p = .ok place) :
    root.standing base p = root.nodeAt? place := by
  rw [standing, h]

lemma standing_of_error {reason : IoFault} (h : root.place base p = .error reason) :
    root.standing base p = none := by
  rw [standing, h]

lemma standing_of_reaches (hp : p.IsLegal name)
    (h : root.Reaches (startOf base p) p.way.dropLast d) :
    root.standing base p = root.at? (d ++ [name]) := by
  rw [standing, place_of_reaches hp h]
  rfl

/-- Something may only stand at a path that leads to a directory. -/
lemma standing_cases (hp : p.EndsIn name) (hstart : root.IsDir (startOf base p)) :
    (p.IsLegal name ∧ ∃ d, root.Reaches (startOf base p) p.way.dropLast d ∧
      root.standing base p = root.at? (d ++ [name])) ∨ root.standing base p = none := by
  cases hplace : root.place base p with
  | error reason => exact .inr (by rw [standing, hplace])
  | ok place =>
      obtain ⟨hlegal, hreach⟩ := reaches_of_place hstart hplace (last_of_place hp hplace)
      exact .inl ⟨hlegal, _, hreach, standing_of_reaches hlegal hreach⟩

/-- What stands at a path depends only on what stands in the directory that it leads to. -/
lemma standing_congr {root' : FileTree} (hp : p.EndsIn name)
    (h : root.Reaches (startOf base p) p.way.dropLast d)
    (h' : root'.Reaches (startOf base p) p.way.dropLast d)
    (hsame : root'.at? (d ++ [name]) = root.at? (d ++ [name])) :
    root'.standing base p = root.standing base p := by
  by_cases hlegal : p.IsLegal name
  · rw [standing_of_reaches hlegal h, standing_of_reaches hlegal h', hsame]
  · have hnone : ∀ {r : FileTree}, r.IsDir (startOf base p) → r.standing base p = none :=
      fun hstart => (standing_cases hp hstart).resolve_left fun hpair => hlegal hpair.1
    rw [hnone h.isDir_start, hnone h'.isDir_start]

end

end FileTree

end WorkerGen
