import Mathlib
import WorkerGen.Proofs.Files.Lookup

/-!
# How a tree grows along a way

Making a directory with those it is in adds directories to a tree, from the first that is missing
on.  Where they come to stand is not plain to see, since a way may lead through links and back, and
a new directory can then be one that the rest of the way leads through again.  If the way does not
go back, it cannot.  `GrownAt` is what is known then: the names before the first missing one lead to
a directory, and all that is new below that is made of the names of the way, one in another.

What is new is thus known from the tree and the names alone.  It is what the names say, below the
last directory that was there (`Grown.label?_cases`), so that two trees that have grown from one
along a way lead to the same place (`Grown.unique`) although one of them may have been made by a run
that was interrupted and the other by one that was not.

* `Grown.put` — one more directory on the way is a step of growth, which is what the recursion that
  makes directories preserves.
* `GrownAt.eq_of_reaches` — there is no link below the first new directory, so that what is reached
  through it stands where the names say.
* `Grown.at?_eq_none` and `Grown.reaches_erase` — what is new was not there before, and the way to
  it does not lead through itself.
-/

namespace WorkerGen

namespace FileTree

/-! ## From the first missing directory on

The way is split at the first name that leads nowhere.  What is before it was there, and what is
behind it stands in one line of directories without links, so that a name of the way can be looked
up in the new tree by its position. -/

/-- Whether a tree has grown from another by directories on the way `c ++ m :: more`: `c` leads to a
directory without `m`, and what is new is made of `m` and the first names of `more`. -/
structure GrownAt (start : Location) (c : List String) (m : String) (more : List String)
    (d : Location) (r₀ r : FileTree) : Prop where
  reaches : r₀.Reaches start c d
  absent : r₀.at? (d ++ [m]) = none
  made : r.IsDir (d ++ [m])
  label? : ∀ l, r.label? l = r₀.label? l ∨
    r₀.label? l = none ∧ r.label? l = some .dir ∧ ∃ t, t <+: more ∧ l = d ++ m :: t

namespace GrownAt

variable {start d D : Location} {c more k : List String} {m : String} {r₀ r : FileTree}

lemma keeps (h : GrownAt start c m more d r₀ r) : Keeps r₀ r := by
  intro l x hl _
  rcases h.label? l with hsame | ⟨hnone, -, -⟩
  · exact hsame.trans hl
  · exact absurd (hnone.symm.trans hl) (by simp)

lemma linkless (h : GrownAt start c m more d r₀ r) : r.Linkless (d ++ [m]) := by
  rintro _ target ⟨rest, rfl⟩ hlink
  rcases h.label? (d ++ [m] ++ rest) with hsame | ⟨-, hdir, -⟩
  · rw [hsame, label?_append, h.absent] at hlink
    exact absurd hlink (by simp)
  · exact absurd (hdir.symm.trans hlink) (by simp)

/-- What is reached through the first new directory is below it, as its names say. -/
lemma eq_of_reaches {t : List String} (h : GrownAt start c m more d r₀ r) (hm : IsStep m)
    (hlong : isLong m = false) (ht : ∀ name ∈ t, IsStep name)
    (hD : r.Reaches start (c ++ m :: t) D) : D = d ++ m :: t := by
  have hfirst : r.Reaches start (c ++ [m]) (d ++ [m]) :=
    (h.reaches.keeps h.keeps).append h.made (by simpa using ⟨hm, hlong⟩)
  rw [List.append_cons] at hD
  exact (hD.of_linkless hfirst h.linkless ht).trans (List.append_cons d m t).symm

/-- Whoever follows the way to something new follows it to the first new directory. -/
lemma exists_eq_append (h : GrownAt start c m more d r₀ r) (hk : k <+: c ++ m :: more)
    (hno : ∀ x, ¬ r₀.Reaches start k x) : ∃ t, t <+: more ∧ k = c ++ m :: t := by
  rcases List.prefix_or_prefix_of_prefix hk (List.prefix_append c (m :: more)) with hshort | hlong
  · obtain ⟨rest, rfl⟩ := hshort
    obtain ⟨y, hy⟩ := h.reaches.of_append
    exact absurd hy (hno y)
  · obtain ⟨u, rfl⟩ := hlong
    rw [List.prefix_append_right_inj] at hk
    cases u with
    | nil =>
        rw [List.append_nil] at hno
        exact absurd h.reaches (hno d)
    | cons name t =>
        obtain ⟨rfl, ht⟩ := List.cons_prefix_cons.mp hk
        exact ⟨t, ht, rfl⟩

/-- What was there leads no further than to the directory without `m`. -/
lemma prefix_of_reaches {t : List String} (h : GrownAt start c m more d r₀ r) (hm : IsStep m)
    (hk : k <+: c ++ m :: t) (hD : r₀.Reaches start k D) : k <+: c := by
  rcases List.prefix_or_prefix_of_prefix hk (List.prefix_append c (m :: t)) with hshort | hlong
  · exact hshort
  · obtain ⟨u, rfl⟩ := hlong
    rw [List.prefix_append_right_inj] at hk
    cases u with
    | nil => rw [List.append_nil]
    | cons name u =>
        obtain ⟨rfl, -⟩ := List.cons_prefix_cons.mp hk
        exact absurd hD (h.reaches.not_of_absent hm h.absent)

end GrownAt

/-! ## Along a whole way

A tree may also not have grown at all.  Both cases are kept when one more directory on the way is
made, and the lemmas below are about a prefix `k` of the way that leads to `D` in the new tree. -/

/-- Whether a tree has grown from another by directories on a way that does not go back. -/
def Grown (start : Location) (way : List String) (r₀ r : FileTree) : Prop :=
  r = r₀ ∨ ∃ c m more d, way = c ++ m :: more ∧ isLong m = false ∧ GrownAt start c m more d r₀ r

namespace Grown

variable {start d D D' : Location} {way way' k : List String} {m : String} {r₀ r r' : FileTree}

lemma label?_of_some (h : Grown start way r₀ r) {l : Location} {x : Label}
    (hl : r₀.label? l = some x) : r.label? l = some x := by
  rcases h with rfl | ⟨c, m, more, d, -, -, h⟩
  · exact hl
  · rcases h.label? l with hsame | ⟨hnone, -, -⟩
    · exact hsame.trans hl
    · exact absurd (hnone.symm.trans hl) (by simp)

/-- The next directory on the way may be made. -/
lemma put (h : Grown start way r₀ r) (hsteps : ∀ name ∈ way, IsStep name) (hk : k ++ [m] <+: way)
    (hlong : isLong m = false) (hd : r.Reaches start k d) (habsent : r.at? (d ++ [m]) = none) :
    Grown start way r₀ (r.put d m (.dir [])) := by
  have hm : IsStep m := hsteps m (hk.subset (by simp))
  have hlabel : ∀ l, (r.put d m (.dir [])).label? l
      = if l = d ++ [m] then some .dir else r.label? l :=
    fun l => label?_put_leaf hd.isDir isLeaf_dir_nil (by simp [habsent]) l
  have hmade : (r.put d m (.dir [])).IsDir (d ++ [m]) := ⟨[], at?_put_self hd.isDir _⟩
  rcases h with rfl | ⟨c, name, more, x, rfl, hname, h⟩
  · -- the first that is missing
    obtain ⟨more, rfl⟩ := hk
    refine .inr ⟨k, m, more, d, List.append_cons .. |>.symm, hlong, hd, habsent, hmade,
      fun l => ?_⟩
    rw [hlabel]
    split_ifs with hl
    · exact .inr ⟨by rw [hl, label?_eq_none_iff, habsent], rfl, [], List.nil_prefix, hl⟩
    · exact .inl rfl
  · have hno : ∀ y, ¬ r₀.Reaches start (k ++ [m]) y := fun y hy =>
      hd.not_of_absent hm habsent (by simpa using hy.keeps h.keeps)
    obtain ⟨u, hu, hku⟩ := h.exists_eq_append hk hno
    have hloc : d ++ [m] = x ++ name :: u := by
      rcases List.eq_nil_or_concat u with rfl | ⟨t, last, rfl⟩
      · -- the first one is there
        obtain ⟨rfl, hlast⟩ := List.append_inj' hku rfl
        obtain rfl : m = name := by simpa using hlast
        rw [hd.unique (h.reaches.keeps h.keeps)] at habsent
        obtain ⟨entries, hat⟩ := h.made
        exact absurd (habsent.symm.trans hat) (by simp)
      · rw [List.concat_eq_append] at hku ⊢
        rw [← List.cons_append, ← List.append_assoc] at hku
        obtain ⟨rfl, hlast⟩ := List.append_inj' hku rfl
        have hway : ∀ s ∈ name :: t, IsStep s := fun s hs =>
          hsteps s (hk.subset (List.mem_append_left _ (List.mem_append_right c hs)))
        rw [List.forall_mem_cons] at hway
        rw [h.eq_of_reaches hway.1 hname hway.2 hd, hlast, List.append_assoc, List.cons_append]
    have hmade' : (r.put d m (.dir [])).IsDir (x ++ [name]) := by
      rw [← label?_eq_dir_iff, hlabel]
      split_ifs
      · rfl
      · exact label?_eq_dir_iff.mpr h.made
    refine .inr ⟨c, name, more, x, rfl, hname, h.reaches, h.absent, hmade', fun l => ?_⟩
    rw [hlabel]
    split_ifs with hl
    · have hnone : r₀.label? (d ++ [m]) = none := by
        rcases h.label? (d ++ [m]) with hsame | ⟨hnone, -, -⟩
        · rw [← hsame, label?_eq_none_iff, habsent]
        · exact hnone
      exact .inr ⟨hl ▸ hnone, rfl, u, hu, hl.trans hloc⟩
    · exact h.label? l

/-- Two trees that have grown from one lead to the same place where that one does not. -/
lemma unique (h : Grown start way r₀ r) (h' : Grown start way' r₀ r')
    (hsteps : ∀ name ∈ k, IsStep name) (hk : k <+: way) (hk' : k <+: way')
    (hno : ∀ x, ¬ r₀.Reaches start k x) (hD : r.Reaches start k D) (hD' : r'.Reaches start k D') :
    D = D' := by
  rcases h with rfl | ⟨c, m, more, d, rfl, hlong, h⟩
  · exact absurd hD (hno D)
  rcases h' with rfl | ⟨c', m', more', d', rfl, hlong', h'⟩
  · exact absurd hD' (hno D')
  obtain ⟨t, -, rfl⟩ := h.exists_eq_append hk hno
  obtain ⟨t', -, hsplit⟩ := h'.exists_eq_append hk' hno
  have hnames : ∀ s ∈ m :: t, IsStep s := fun s hs => hsteps s (List.mem_append_right c hs)
  have hm' : IsStep m' := hsteps m' (by simp [hsplit])
  rw [List.forall_mem_cons] at hnames
  -- both have grown from the same directory
  have hc : c <+: c' := h'.prefix_of_reaches hm' (hsplit ▸ List.prefix_append c _) h.reaches
  have hc' : c' <+: c := h.prefix_of_reaches hnames.1 (hsplit ▸ List.prefix_append c' _) h'.reaches
  obtain rfl := hc.eq_of_length_le hc'.length_le
  rw [List.append_cancel_left_eq] at hsplit
  obtain ⟨rfl, rfl⟩ := List.cons.inj hsplit
  rw [h.eq_of_reaches hnames.1 hlong hnames.2 hD, h'.eq_of_reaches hnames.1 hlong hnames.2 hD',
    h.reaches.unique h'.reaches]

section
variable {more : List String} (h : Grown start (k ++ more) r₀ r)
  (hsteps : ∀ name ∈ k, IsStep name) (hno : ∀ x, ¬ r₀.Reaches start k x)
  (hD : r.Reaches start k D)
include h hsteps hno hD

/-- What is new is on the way to what is reached at the end of the way, or is what else is on it. -/
lemma label?_cases (l : Location) :
    r.label? l = r₀.label? l ∨ r₀.label? l = none ∧ r.label? l = some .dir ∧ l <+: D ++ more := by
  rcases h with rfl | ⟨c, m, rest, d, hway, hlong, h⟩
  · exact .inl rfl
  obtain ⟨t, -, rfl⟩ := h.exists_eq_append (hway ▸ List.prefix_append k more) hno
  have hnames : ∀ s ∈ m :: t, IsStep s := fun s hs => hsteps s (List.mem_append_right c hs)
  rw [List.forall_mem_cons] at hnames
  rw [h.eq_of_reaches hnames.1 hlong hnames.2 hD]
  rw [List.append_assoc, List.append_cancel_left_eq, List.cons_append, List.cons.injEq] at hway
  refine (h.label? l).imp_right fun hnew => ?_
  obtain ⟨hnone, hdir, u, hu, rfl⟩ := hnew
  refine ⟨hnone, hdir, ?_⟩
  rw [List.append_assoc, List.prefix_append_right_inj, List.cons_append, hway.2,
    List.prefix_cons_inj]
  exact hu

/-- What is reached at the end of the way has not been there. -/
lemma at?_eq_none (rest : Location) : r₀.at? (D ++ rest) = none := by
  rcases h with rfl | ⟨c, m, _, d, hway, hlong, h⟩
  · exact absurd hD (hno D)
  obtain ⟨t, -, rfl⟩ := h.exists_eq_append (hway ▸ List.prefix_append k more) hno
  have hnames : ∀ s ∈ m :: t, IsStep s := fun s hs => hsteps s (List.mem_append_right c hs)
  rw [List.forall_mem_cons] at hnames
  rw [h.eq_of_reaches hnames.1 hlong hnames.2 hD, List.append_cons, at?_append, at?_append,
    h.absent]
  rfl

/-- The way to what is reached at the end of the way leads through nothing in it. -/
lemma reaches_erase (name : String) : (r.erase D name).Reaches start k D := by
  have hnone := h.at?_eq_none hsteps hno hD
  rcases h with rfl | ⟨c, m, _, d, hway, hlong, h⟩
  · exact absurd hD (hno D)
  obtain ⟨t, -, rfl⟩ := h.exists_eq_append (hway ▸ List.prefix_append k more) hno
  have hnames : ∀ s ∈ m :: t, IsStep s := fun s hs => hsteps s (List.mem_append_right c hs)
  have hlast := hD.notLong_of_mem hsteps
  rw [List.forall_mem_cons] at hnames
  obtain rfl := h.eq_of_reaches hnames.1 hlong hnames.2 hD
  have hkeeps : Keeps r₀ (r.erase (d ++ m :: t) name) := by
    intro l x hl hx
    rw [(SameOff.erase r _ name).label? l, h.keeps l x hl hx]
    simp only [List.mem_singleton, forall_eq]
    rintro ⟨rest, rfl⟩
    rw [List.append_assoc, label?_eq_none_iff.mpr (hnone _)] at hl
    exact absurd hl (by simp)
  have hbelow : ¬ d ++ m :: t ++ [name] <+: d ++ m :: t := fun hp => absurd hp.length_le (by simp)
  have hdir : (r.erase (d ++ m :: t) name).IsDir (d ++ m :: t) :=
    ((SameOff.erase r _ name).isDir fun x hx => List.mem_singleton.mp hx ▸ hbelow).mpr hD.isDir
  refine (h.reaches.keeps hkeeps).append hdir fun s hs => ?_
  have hmem := List.mem_append_right c hs
  exact ⟨hsteps s hmem, hlast s hmem⟩

end

end Grown

end FileTree

end WorkerGen
