import Mathlib
import WorkerGen.Proofs.Build.Content
import WorkerGen.Proofs.Host.Renaming
import WorkerGen.Proofs.Host.Staging

/-!
# What a staged build ensures

A staged build touches two entries of one directory: the output directory and the staging directory.
`Underway` says what holds of the two at every moment: what has stood at the output still does, or
the new build does, or nothing does and what has stood there is in the staging directory.  The last
is only so between the two renames of a swap.

The swap puts everything back if the new build cannot take its place, unless the way to the output
leads through the output itself, so that moving it away cuts that way off.  A way that does not is
called steady, `IsSteady`.  Most of what is needed of it comes of itself: a staging directory that
is still reached when nothing stands at the output shows that its way is steady
(`steady_of_walkThrough`), so that a rename which succeeds proves what the next one needs.

* `Ground` and `Setting` — a staging directory can be made beside the output, under another name.
* `Preparing` — what holds while the new build is made in the staging directory.
* `Underway` — what holds at every moment, which is what an interruption leaves.
* `ensures_swap` — the swap replaces what stands at the output or leaves it, whatever is refused,
  unless what would put it back is refused.
* `ensures_stage` — staging makes the new build and swaps it into place.
* `ensures_stage_self` — a build that is staged at the output itself fails.  A staging directory
  with the name of the output is no more than unlikely, and has to be dealt with.

All paths that the build uses are followed from the working directory or from the root, and the same
directory has to be recognised on both ways.  The first two sections are about that.
-/

namespace WorkerGen

namespace Build

open FileTree Script

/-! ## The directory that a path is in

The staging directory is known by a path from the root, and the output by the path that was given.
Both lead to one directory: a location with plain names is reached from the root by these names. -/

section
variable {output : Path} {name : String} {base D : Location} {r e : FileTree}

lemma way_stagingParent (h : output.way ≠ []) :
    (stagingParent output).way = output.way.dropLast := by
  obtain ⟨parent, hparent⟩ := Path.exists_parent? h
  rw [stagingParent, hparent, ← Path.way_parent? hparent]
  dsimp only
  split_ifs with hempty
  · rw [Path.way, Path.way, Path.names_of_isEmpty hempty]
    decide
  · rfl

lemma isAbsolute_stagingParent (h : output.way ≠ []) :
    (stagingParent output).isAbsolute = output.isAbsolute := by
  obtain ⟨parent, hparent⟩ := Path.exists_parent? h
  rw [stagingParent, hparent, ← Path.isAbsolute_parent? hparent]
  dsimp only
  split_ifs with hempty
  · obtain ⟨text⟩ := parent
    obtain rfl : text = "" := by simpa using hempty
    decide
  · rfl

/-- The names that lead from the root to the directory that an output is in. -/
lemma route_stagingParent (h : output.way ≠ []) :
    (stagingParent output).route base
      = if output.isAbsolute then output.way.dropLast else base ++ output.way.dropLast := by
  rw [Path.route, isAbsolute_stagingParent h, way_stagingParent h]

/-- What is reached from the root is reached from the working directory. -/
lemma reaches_of_route (h : output.way ≠ [])
    (hbase : ∀ name ∈ base, Path.IsName name ∧ isLong name = false)
    (hdir : r.IsDir (startOf base output))
    (hD : r.Reaches [] ((stagingParent output).route base) D) :
    r.Reaches (startOf base output) output.way.dropLast D := by
  rw [route_stagingParent h] at hD
  split_ifs at hD with habs
  · rwa [startOf, if_pos habs]
  · rw [startOf, if_neg habs] at hdir ⊢
    refine ⟨hdir, ?_⟩
    have hwalk := hD.walk
    have hsteps : ∀ name ∈ base, IsStep name ∧ isLong name = false := fun name hname =>
      ⟨(hbase name hname).1.isStep, (hbase name hname).2⟩
    rwa [walkThrough_of_isDir (by rwa [List.nil_append]) hsteps, List.nil_append] at hwalk

/-- What is reached from the working directory is reached from the root. -/
lemma route_of_reaches (h : output.way ≠ [])
    (hbase : ∀ name ∈ base, Path.IsName name ∧ isLong name = false)
    (hD : r.Reaches (startOf base output) output.way.dropLast D) :
    r.Reaches [] ((stagingParent output).route base) D := by
  have hroot := hD.isDir_start.above List.nil_prefix
  have hwalk := hD.walk
  have hdir := hD.isDir_start
  rw [route_stagingParent h]
  split_ifs with habs
  · rw [startOf, if_pos habs] at hwalk
    exact ⟨hroot, hwalk⟩
  · rw [startOf, if_neg habs] at hwalk hdir
    have hsteps : ∀ name ∈ base, IsStep name ∧ isLong name = false := fun name hname =>
      ⟨(hbase name hname).1.isStep, (hbase name hname).2⟩
    refine ⟨hroot, ?_⟩
    rwa [walkThrough_of_isDir (by rwa [List.nil_append]) hsteps, List.nil_append]

/-- Nothing that leads from the root has been lost if the whole way is still there. -/
lemma reaches_of_route_of_lost (h : output.way ≠ [])
    (hbase : ∀ name ∈ base, Path.IsName name ∧ isLong name = false)
    (hdir : r.IsDir (startOf base output)) (hlost : Lost r e)
    (hD : e.Reaches [] ((stagingParent output).route base) D) :
    e.Reaches (startOf base output) output.way.dropLast D := by
  refine reaches_of_route h hbase ?_ hD
  rw [route_stagingParent h] at hD
  split_ifs at hD with habs
  · rw [startOf, if_pos habs]
    exact hD.isDir_start
  · rw [startOf, if_neg habs] at hdir ⊢
    obtain ⟨y, hy⟩ := hD.of_append
    have hsteps : ∀ name ∈ base, IsStep name ∧ isLong name = false := fun name hname =>
      ⟨(hbase name hname).1.isStep, (hbase name hname).2⟩
    have hwalk : r.walkThrough linkLimit [] (base ++ [])
        = r.walkThrough linkLimit ([] ++ base) [] :=
      walkThrough_of_isDir hdir hsteps linkLimit []
    rw [List.append_nil, walkThrough_eq r linkLimit ([] ++ base) []] at hwalk
    have hy' := hlost.walkThrough (x := base) hwalk hy.walk
    exact hy' ▸ hy.isDir

end

/-! ## Two entries of one directory

The entries have different names in one directory, so a location is below the one, below the other,
or below neither, and each request of a swap touches one or both of them. -/

lemma isName_out : Path.IsName "out" := by constructor <;> decide

lemma isName_previous : Path.IsName "previous" := by constructor <;> decide

/-- A staging directory can be made where the directory of an output is: at `D`, in a tree `r₁`. -/
structure Ground (base : Location) (output staging : Path) (name s : String) (D : Location)
    (r₁ : FileTree) : Prop where
  base_names : ∀ name ∈ base, Path.IsName name ∧ isLong name = false
  ends : output.EndsIn name
  staging : IsStaging base (stagingParent output) r₁ staging D s
  own : r₁.Reaches (startOf base output) output.way.dropLast D

/-- A staging directory can be made beside an output. -/
structure Setting (base : Location) (output staging : Path) (name s : String) (D : Location)
    (r₁ : FileTree) : Prop extends Ground base output staging name s D r₁ where
  ne : s ≠ name

/-- Whether the way to the directory of an output does not lead through the output itself. -/
def IsSteady (base : Location) (output : Path) (name : String) (D : Location) (r₁ : FileTree) :
    Prop :=
  (r₁.erase D name).Reaches [] ((stagingParent output).route base) D

namespace Ground

variable {base D : Location} {output staging : Path} {name s : String} {r₁ r : FileTree}

section
variable (h : Ground base output staging name s D r₁)
include h

lemma isStep : IsStep s := ⟨h.staging.isName.current, h.staging.isName.parent⟩

/-- A steady way from the root is one from the working directory. -/
lemma own_of_steady (hsteady : IsSteady base output name D r₁) :
    (r₁.erase D name).Reaches (startOf base output) output.way.dropLast D :=
  reaches_of_route_of_lost h.ends.way_ne_nil h.base_names h.own.isDir_start (Lost.erase r₁ D name)
    hsteady

/-- What is only changed below the staging directory keeps the way. -/
lemma keeps_of_staging (hoff : SameOff [D ++ [s]] r₁ r) : Keeps r₁ r :=
  hoff.keeps (by simp [h.staging.absent])

/-! ### Paths into the staging directory

The prepared build and the earlier one stand in the staging directory under fixed names, and are
known by paths that are joined to its own. -/

lemma startOf_entry {m : String} (hm : Path.IsName m) : startOf base (staging.join ⟨m⟩) = [] := by
  rw [startOf, Path.isAbsolute_join hm.isAbsolute, h.staging.absolute, if_pos rfl]

lemma way_entry {m : String} (hm : Path.IsName m) :
    (staging.join ⟨m⟩).way = (stagingParent output).route base ++ [s] ++ [m] := by
  rw [Path.way_join hm.isAbsolute, hm.way, h.staging.way]

omit h in
lemma endsIn_entry {m : String} (hm : Path.IsName m) : (staging.join ⟨m⟩).EndsIn m := by
  refine ⟨?_, hm.current, hm.parent⟩
  rw [Path.names_join hm.isAbsolute, hm.names, List.getLast?_concat]

/-- The path of the prepared build is looked for if that of the earlier build is. -/
lemma isLegal_out (hprevious : (staging.join "previous").IsLegal "previous") :
    (staging.join "out").IsLegal "out" := by
  have hempty : staging.text ≠ "" := by
    intro htext
    have habs := h.staging.absolute
    rw [Path.isAbsolute, htext] at habs
    exact absurd habs (by decide)
  refine ⟨endsIn_entry isName_out, ?_, by decide⟩
  exact Path.check_join_of_le (by decide) (by decide) hempty (by decide) (by decide) hprevious.check

/-- The staging directory is reached from the root as soon as its parent is. -/
lemma reaches_staging (hD : r.Reaches [] ((stagingParent output).route base) D)
    (hS : r.IsDir (D ++ [s])) :
    r.Reaches [] ((stagingParent output).route base ++ [s]) (D ++ [s]) :=
  hD.append hS (by simpa using ⟨h.isStep, h.staging.isLegal.notLong⟩)

/-- Where a path into the staging directory leads. -/
lemma eq_of_walkThrough_entry {m : String} {d : Location} (hm : Path.IsName m)
    (hreach : r.Reaches [] ((stagingParent output).route base ++ [s]) (D ++ [s]))
    (hwalk : r.walkThrough linkLimit (startOf base (staging.join ⟨m⟩))
      (staging.join ⟨m⟩).way.dropLast = .ok d) : d = D ++ [s] := by
  rw [h.startOf_entry hm, h.way_entry hm, List.dropLast_concat] at hwalk
  exact (Reaches.mk hreach.isDir_start hwalk).unique hreach

end

end Ground

namespace Setting

variable {base D x start : Location} {output staging : Path} {name s : String}
  {r₁ r : FileTree} {names : List String}

section
variable (h : Setting base output staging name s D r₁)
include h

lemma not_output_prefix : ¬ D ++ [name] <+: D ++ [s] := by
  simpa using fun hname : name = s => h.ne hname.symm

lemma label?_of_apart {l : Location} {y : Label} (hoff : SameOff [D ++ [name], D ++ [s]] r₁ r)
    (hl : r₁.label? l = some y) (hname : ¬ D ++ [name] <+: l) : r.label? l = some y := by
  have hs : ¬ D ++ [s] <+: l := by
    rintro ⟨rest, rfl⟩
    rw [label?_append, h.staging.absent] at hl
    exact absurd hl (by simp)
  rw [hoff.label? l (by simpa using ⟨hname, hs⟩), hl]

/-- What has at the output what was there keeps the way. -/
lemma keeps_of_same (hoff : SameOff [D ++ [name], D ++ [s]] r₁ r)
    (hsame : r.at? (D ++ [name]) = r₁.at? (D ++ [name])) : Keeps r₁ r := by
  intro l y hl _
  by_cases hname : D ++ [name] <+: l
  · obtain ⟨rest, rfl⟩ := hname
    rwa [label?_append, hsame, ← label?_append]
  · exact h.label?_of_apart hoff hl hname

/-- A way that does not lead through the output is kept whatever becomes of it. -/
lemma reaches_of_steady (hoff : SameOff [D ++ [name], D ++ [s]] r₁ r)
    (h₁ : r₁.Reaches start names x) (he : (r₁.erase D name).Reaches start names x) :
    r.Reaches start names x := by
  refine h₁.common he (fun l y hl _ => hl ▸ Lost.erase r₁ D name l) fun l y hl _ hle =>
    h.label?_of_apart hoff hl ?_
  rintro ⟨rest, rfl⟩
  rw [List.append_assoc, List.singleton_append, label?_eq_none_iff.mpr (at?_erase rest)] at hle
  exact absurd hle (by simp)

lemma label?_cases (hoff : SameOff [D ++ [name], D ++ [s]] r₁ r)
    (habsent : r.at? (D ++ [name]) = none) (l : Location) (y : Label) (hl : r₁.label? l = some y) :
    r.label? l = some y ∧ ¬ D ++ [name] <+: l ∨ r.label? l = none := by
  by_cases hname : D ++ [name] <+: l
  · obtain ⟨rest, rfl⟩ := hname
    rw [label?_append, habsent]
    exact .inr rfl
  · exact .inl ⟨h.label?_of_apart hoff hl hname, hname⟩

/-- A way that is still there when nothing stands at the output does not lead through it. -/
lemma steady_of_reaches (hoff : SameOff [D ++ [name], D ++ [s]] r₁ r)
    (habsent : r.at? (D ++ [name]) = none) (h₁ : r₁.Reaches start names x)
    (hr : r.Reaches start names x) : (r₁.erase D name).Reaches start names x := by
  refine h₁.common hr (fun l y hl _ => (h.label?_cases hoff habsent l y hl).imp_left And.left)
    fun l y hl _ hrl => ?_
  rcases h.label?_cases hoff habsent l y hl with ⟨-, hname⟩ | hnone
  · rw [(SameOff.erase r₁ D name).label? l (by simpa using hname), hl]
  · exact absurd (hnone.symm.trans hrl) (by simp)

/-- A tree in which nothing stands at the output leads to the same place or to none. -/
lemma eq_or_error (hoff : SameOff [D ++ [name], D ++ [s]] r₁ r)
    (habsent : r.at? (D ++ [name]) = none) (h₁ : r₁.Reaches start names x) :
    r.walkThrough linkLimit start names = .ok x ∨
      r.walkThrough linkLimit start names = .error .notFound :=
  walkThrough_of_lost (fun l y hl _ => (h.label?_cases hoff habsent l y hl).imp_left And.left)
    h₁.walk

/-- If the staging directory is still reached when nothing stands at the output, its way does not
lead through the output. -/
lemma steady_of_walkThrough {d : Location} (hoff : SameOff [D ++ [name], D ++ [s]] r₁ r)
    (habsent : r.at? (D ++ [name]) = none)
    (hwalk : r.walkThrough linkLimit [] ((stagingParent output).route base) = .ok d) :
    IsSteady base output name D r₁ := by
  have hroot : r.IsDir [] := (hoff.isDir (by simp)).mpr h.staging.reaches.isDir_start
  rcases h.eq_or_error hoff habsent h.staging.reaches with hok | herror
  · exact h.steady_of_reaches hoff habsent h.staging.reaches ⟨hroot, hok⟩
  · exact absurd (herror.symm.trans hwalk) (by simp)

end

end Setting

/-! ## Preparing the new build

Everything that happens here is below the staging directory, which is new.  What stands at the
output is not touched, and its directory is still where it was. -/

/-- What holds while the new build is prepared. -/
structure Preparing (D : Location) (s : String) (r₁ r : FileTree) : Prop where
  sameOff : SameOff [D ++ [s]] r₁ r
  isDir : r.IsDir (D ++ [s])
  noPrevious : r.at? (D ++ [s] ++ ["previous"]) = none

section
variable {may : Request → Prop} {base D : Location} {output staging : Path} {name s : String}
  {r₁ : FileTree} {n : ℕ∞} {files : List OutputFile}

lemma preparing_of_sameOff {r r' : FileTree} (hr : Preparing D s r₁ r)
    (hoff : SameOff [D ++ [s] ++ ["out"]] r r') : Preparing D s r₁ r' := by
  refine ⟨hr.sameOff.trans (hoff.widen ?_), (hoff.isDir ?_).mpr hr.isDir, ?_⟩
  · simp
  · simp
  · rw [hoff.at? _ (by simp), hr.noPrevious]

/-- Making an output directory in the staging directory changes nothing else. -/
lemma Preparing.of_fresh {start : Location} {k : List String} {r r' : FileTree}
    (hr : Preparing D s r₁ r) (hreach : r.Reaches start k (D ++ [s]))
    (hfresh : Fresh start k "out" r r') : Preparing D s r₁ r' := by
  cases hfresh with
  | missing isDir notThere same => exact same ⟨_, hreach⟩ ▸ hr
  | made d reaches notLong new sameOff =>
      obtain ⟨hd, -, hoff⟩ := sameOff ⟨_, hreach⟩
      rw [hd.unique hreach] at hoff
      exact preparing_of_sameOff hr hoff

/-- A new staging directory is empty. -/
lemma Ground.preparing (h : Ground base output staging name s D r₁) :
    Preparing D s r₁ (r₁.put D s (.dir [])) := by
  have hS : (r₁.put D s (.dir [])).at? (D ++ [s]) = some (.dir []) :=
    at?_put_self h.staging.reaches.isDir _
  refine ⟨SameOff.put r₁ D s _, ⟨[], hS⟩, ?_⟩
  rw [at?_concat, hS]
  rfl

/-- In the new staging directory an output directory is made. -/
lemma ensures_reset_staged (h : Ground base output staging name s D r₁) :
    Ensures may base (Preparing D s r₁) (reset (staging.join "out")).run n (r₁.put D s (.dir []))
      fun result _ r => result = .ok () →
        r.Reaches [] (staging.join "out").way (D ++ [s] ++ ["out"]) ∧
          ∀ l, r.label? (D ++ [s] ++ ["out"] ++ l) = expected [] l := by
  set r₂ := r₁.put D s (.dir [])
  set k := (stagingParent output).route base ++ [s]
  have hS : r₂.at? (D ++ [s]) = some (.dir []) := at?_put_self h.staging.reaches.isDir _
  have hreach : r₂.Reaches [] k (D ++ [s]) :=
    h.reaches_staging (h.staging.reaches.keeps (.put (by simp [h.staging.absent]))) ⟨[], hS⟩
  have hprepare : Preparing D s r₁ r₂ := h.preparing
  have habsent : r₂.at? (D ++ [s] ++ ["out"]) = none := by
    rw [at?_concat, hS]
    rfl
  have hstart : startOf base (staging.join "out") = [] := h.startOf_entry isName_out
  have hway : (staging.join "out").way = k ++ ["out"] := h.way_entry isName_out
  have hfresh : Fresh [] k "out" r₂ r₂ :=
    .missing hreach.isDir_start (fun x => hreach.not_of_absent isName_out.isStep habsent)
      fun _ => rfl
  have hnothing : r₂.standing base (staging.join "out") = none := by
    refine standing_of_lost (Ground.endsIn_entry isName_out) ?_ (Lost.refl r₂) habsent
    rw [hstart, hway, List.dropLast_concat]
    exact hreach.walk
  refine Ensures.mono (I := Fresh [] k "out" r₂) (Ensures.andThen (M := fun _ _ r => r = r₂) ?_ ?_
    (Q := fun result _ r => result = .ok () → ∃ d, r.Reaches [] k d ∧ isLong "out" = false ∧
      r.at? (d ++ ["out"]) = some (.dir [("handlers", .dir [])])) ?_)
    (fun _ hr => hprepare.of_fresh hreach hr) ?_
  · refine Ensures.tolerant ((ensures_removeAll_of_nothing hfresh hnothing).weaken ?_)
    rintro (reason | u) m r' - - ⟨rfl, -⟩
    · cases reason <;> rfl
    · rfl
  · rintro u m r' - hr' rfl
    have hmake : Ensures may base (Fresh (startOf base (staging.join "out")) k "out" r₂) _ m r₂ _ :=
      ensures_makeFresh hway isName_out.isStep (.inr ⟨D ++ [s], by rw [hstart]; exact hreach⟩)
        (by rw [hstart]; exact hr')
    rwa [hstart] at hmake
  · exact fun _ _ _ _ _ _ => nofun
  · intro result m r _ hr hmade hresult
    obtain ⟨d, hd, hlong, hnew⟩ := hmade hresult
    obtain ⟨rfl, -⟩ := hr.eq_of_reaches isName_out.isStep hreach hd hlong ⟨_, hnew⟩
    rw [hway]
    exact ⟨Fresh.reaches_self isName_out.isStep hd hlong ⟨_, hnew⟩, label?_fresh hnew⟩

/-- A failure to make it is one to write it. -/
lemma ensures_writing_reset (h : Ground base output staging name s D r₁) :
    Ensures may base (Preparing D s r₁) (writing (staging.join "out")
      (reset (staging.join "out"))).run n (r₁.put D s (.dir [])) fun result _ r => result = .ok () →
        r.Reaches [] (staging.join "out").way (D ++ [s] ++ ["out"]) ∧
          ∀ l, r.label? (D ++ [s] ++ ["out"] ++ l) = expected [] l := by
  refine ensures_writing ((ensures_reset_staged h).weaken ?_)
  rintro (reason | u) m r - - hr hresult
  · cases hresult
  · exact hr rfl

/-- In the output directory the files are written. -/
lemma ensures_writeFiles_staged {r : FileTree} (h : Ground base output staging name s D r₁)
    (hinside : ∀ f ∈ files, f.path.IsInside) (hr : Preparing D s r₁ r)
    (hreach : r.Reaches [] (staging.join "out").way (D ++ [s] ++ ["out"]))
    (hlabels : ∀ l, r.label? (D ++ [s] ++ ["out"] ++ l) = expected [] l) :
    Ensures may base (Preparing D s r₁) (writeFiles (staging.join "out") files).run n r
      fun result _ r => result = .ok () →
        ∀ l, r.label? (D ++ [s] ++ ["out"] ++ l) = expected files l := by
  have hstart : startOf base (staging.join "out") = [] := h.startOf_entry isName_out
  have hwrite : Ensures may base _ _ n r _ :=
    ensures_writeFiles (b := staging.join "out") hinside (by rw [hstart]; exact hreach) hlabels
  exact hwrite.mono (fun r' hr' => preparing_of_sameOff hr hr'.1)
    fun result m' r' _ _ hr' hresult l => hr' hresult l

/-- The prepared build is a directory, and a build. -/
lemma exists_prepared {r : FileTree} {O : Location} (hinside : ∀ f ∈ files, f.path.IsInside)
    (hlabels : ∀ l, r.label? (O ++ l) = expected files l) :
    ∃ entries, r.at? O = some (.dir entries) ∧ IsBuild files (.dir entries) := by
  have hroot : expected files [] = some .dir := by
    have hnone : fileAt? files [] = none := by
      rw [fileAt?, List.find?_eq_none]
      intro f hf hway
      exact (hinside f (List.mem_reverse.mp hf)).named (by simpa using hway)
    rw [expected, hnone]
    simp
  have hdir := hlabels []
  rw [List.append_nil, hroot, label?_eq_dir_iff] at hdir
  obtain ⟨entries, hat⟩ := hdir
  refine ⟨entries, hat, fun l => ?_⟩
  rw [← hlabels, label?_append, hat, Option.bind_some]

/-! ## The swap

Two renames, and a third that undoes the first.  Each is taken apart by the rule for renames, and
`Underway` is what they keep. -/

/-- The new build has taken its place. -/
structure Replaced (files : List OutputFile) (base : Location) (output : Path) (D : Location)
    (name : String) (r₁ r : FileTree) : Prop where
  build : ∃ entries, r.at? (D ++ [name]) = some (.dir entries) ∧ IsBuild files (.dir entries)
  legal : output.IsLegal name
  way : IsSteady base output name D r₁ ∨ r₁.at? (D ++ [name]) = none ∨
    r₁.at? (D ++ [name]) = some (.dir [])

/-- What holds of a staged build at every moment: what has stood at the output still does, or the
new build does, or nothing does and what has stood there is in the staging directory. -/
structure Underway (files : List OutputFile) (base : Location) (output : Path) (D : Location)
    (name s : String) (r₁ r : FileTree) : Prop where
  sameOff : SameOff [D ++ [name], D ++ [s]] r₁ r
  cases : r.at? (D ++ [name]) = r₁.at? (D ++ [name]) ∨ Replaced files base output D name r₁ r ∨
    ∃ node, r₁.at? (D ++ [name]) = some node ∧ r.at? (D ++ [name]) = none ∧
      r.at? (D ++ [s] ++ ["previous"]) = some node

/-- What has stood at the output has been moved into the staging directory. -/
structure Away (files : List OutputFile) (output staging : Path) (D : Location) (name s : String)
    (node r₁ r : FileTree) : Prop where
  sameOff : SameOff [D ++ [name], D ++ [s]] r₁ r
  previous : r₁.at? (D ++ [name]) = some node
  absent : r.at? (D ++ [name]) = none
  parked : r.at? (D ++ [s] ++ ["previous"]) = some node
  labels : ∀ l, r.label? (D ++ [s] ++ ["out"] ++ l) = expected files l
  isDir : r.IsDir (D ++ [s])
  legal : output.IsLegal name
  slash : node.kind = .dir ∨ output.endsWithSlash = false
  parkedLegal : (staging.join "previous").IsLegal "previous"

lemma Preparing.at?_output {r : FileTree} (h : Setting base output staging name s D r₁)
    (hr : Preparing D s r₁ r) : r.at? (D ++ [name]) = r₁.at? (D ++ [name]) :=
  hr.sameOff.at? _ (by simpa using ⟨h.ne, h.ne.symm⟩)

lemma Preparing.underway {r : FileTree} (h : Setting base output staging name s D r₁)
    (hr : Preparing D s r₁ r) : Underway files base output D name s r₁ r :=
  ⟨hr.sameOff.widen (by simp), .inl (hr.at?_output h)⟩

lemma Away.underway {r node : FileTree} (hr : Away files output staging D name s node r₁ r) :
    Underway files base output D name s r₁ r :=
  ⟨hr.sameOff, .inr (.inr ⟨node, hr.previous, hr.absent, hr.parked⟩)⟩

/-- A directory may only take the place of nothing or of an empty directory. -/
lemma of_mayReplace_dir {entries : List (String × FileTree)} {old : Option FileTree}
    (hmay : World.mayReplace (.dir entries) old = .ok ()) : old = none ∨ old = some (.dir []) := by
  cases old with
  | none => exact .inl rfl
  | some old =>
      cases old with
      | dir more =>
          cases more with
          | nil => exact .inr rfl
          | cons entry more => cases hmay
      | file content | link target => cases hmay

end

section
variable {may : Request → Prop} {base D : Location} {output staging : Path} {name s : String}
  {r₁ r : FileTree} {n : ℕ∞} {files : List OutputFile}
  (h : Setting base output staging name s D r₁) (hinside : ∀ f ∈ files, f.path.IsInside)
include h

include hinside

/-- Renaming the prepared build to the output replaces it, if anything. -/
lemma ensures_replace (hr : Preparing D s r₁ r)
    (hlabels : ∀ l, r.label? (D ++ [s] ++ ["out"] ++ l) = expected files l) :
    Ensures may base (Underway files base output D name s r₁)
      (request (.rename (staging.join "out") output)) n r fun result _ r' =>
        (result = .ok () → Replaced files base output D name r₁ r') ∧
          (result ≠ .ok () → r' = r) := by
  have hkeeps := h.keeps_of_staging hr.sameOff
  have hown := h.own.keeps hkeeps
  have hreach := h.reaches_staging (h.staging.reaches.keeps hkeeps) hr.isDir
  obtain ⟨entries, hat, hbuild⟩ := exists_prepared hinside hlabels
  refine ensures_rename (hr.underway h) hown.isDir_start ?_ ?_ fun _ _ _ => ⟨nofun, fun _ => rfl⟩
  · intro d m d' m' node r' hsource htarget hd hd' hmoved _ hmay
    obtain rfl := h.eq_of_walkThrough_entry isName_out hreach hd
    obtain rfl := hsource.toEndsIn.unique (Ground.endsIn_entry isName_out)
    obtain rfl := hd'.unique hown
    obtain rfl := htarget.toEndsIn.unique h.ends
    obtain rfl := Option.some.inj (hat.symm.trans hmoved.node_at)
    rw [hr.at?_output h] at hmay
    have hreplaced : Replaced files base output d' m' r₁ r' :=
      ⟨⟨_, hmoved.at?_new, hbuild⟩, htarget, .inr (of_mayReplace_dir hmay)⟩
    refine ⟨⟨?_, .inr (.inl hreplaced)⟩, fun _ => hreplaced, fun hne => absurd rfl hne⟩
    exact (hr.sameOff.widen (by simp)).trans (hmoved.sameOff.widen (by simp))
  · intro d m hd hd' _ _
    have hS := h.eq_of_walkThrough_entry isName_out hreach hd
    have hD := hd'.unique hown
    exact absurd (congrArg List.length (hS.symm.trans hD)) (by simp)

omit hinside in
/-- What stands at the output can be moved into the staging directory. -/
lemma ensures_moveAway (hr : Preparing D s r₁ r)
    (hlabels : ∀ l, r.label? (D ++ [s] ++ ["out"] ++ l) = expected files l) :
    Ensures may base (Underway files base output D name s r₁)
      (request (.rename output (staging.join "previous"))) n r fun result _ r' =>
        (result = .ok () → ∃ node, Away files output staging D name s node r₁ r') ∧
          (result ≠ .ok () → r' = r) := by
  have hkeeps := h.keeps_of_staging hr.sameOff
  have hown := h.own.keeps hkeeps
  have hreach := h.reaches_staging (h.staging.reaches.keeps hkeeps) hr.isDir
  have hstart := h.startOf_entry isName_previous
  refine ensures_rename (hr.underway h) (by rw [hstart]; exact hreach.isDir_start) ?_ ?_
    fun _ _ _ => ⟨nofun, fun _ => rfl⟩
  · intro d m d' m' node r' hsource htarget hd hd' hmoved hslash _
    obtain rfl := (Reaches.mk hown.isDir_start hd).unique hown
    obtain rfl := hsource.toEndsIn.unique h.ends
    obtain rfl := h.eq_of_walkThrough_entry isName_previous hreach hd'.walk
    obtain rfl := htarget.toEndsIn.unique (Ground.endsIn_entry isName_previous)
    have hout : ∀ l, r'.label? (d ++ [s] ++ ["out"] ++ l) = expected files l := by
      intro l
      rw [hmoved.sameOff.label? _ (by simpa using fun hm => absurd hm h.ne.symm), hlabels]
    have hS : r'.IsDir (d ++ [s]) :=
      (hmoved.sameOff.isDir (by simpa using h.ne.symm)).mpr hr.isDir
    have haway : Away files output staging d m s node r₁ r' :=
      ⟨(hr.sameOff.widen (by simp)).trans (hmoved.sameOff.widen (by simp)),
        (hr.at?_output h).symm.trans hmoved.node_at, hmoved.at?_old, hmoved.at?_new, hout, hS,
        hsource, hslash.imp_right And.left, htarget⟩
    exact ⟨haway.underway, fun _ => ⟨node, haway⟩, fun hne => absurd rfl hne⟩
  · intro d m hd hd' _ _
    have hS := h.eq_of_walkThrough_entry isName_previous hreach hd'.walk
    have hD := (Reaches.mk hown.isDir_start hd).unique hown
    exact absurd (congrArg List.length (hS.symm.trans hD)) (by simp)

/-! ### With the earlier build away

A rename that succeeds now has found both its paths.  If the way to the output does not lead through
it they are found in any case, and the rename fails only if it is refused. -/

section
variable {node : FileTree} (hr : Away files output staging D name s node r₁ r)
include hr

omit hinside in
/-- What leads to the staging directory while the earlier build is away does not lead through the
output. -/
lemma Away.steady_of_walkThrough {m : String} {d : Location} (hm : Path.IsName m)
    (hwalk : r.walkThrough linkLimit (startOf base (staging.join ⟨m⟩))
      (staging.join ⟨m⟩).way.dropLast = .ok d) : IsSteady base output name D r₁ := by
  rw [h.startOf_entry hm, h.way_entry hm, List.dropLast_concat] at hwalk
  obtain ⟨y, hy⟩ := exists_of_walkThrough_append hwalk
  exact h.steady_of_walkThrough hr.sameOff hr.absent hy

omit hinside in
/-- With the way cut off, nothing is renamed from the staging directory. -/
lemma ensures_rename_cutOff {m : String} (hm : Path.IsName m)
    (hcut : ¬ IsSteady base output name D r₁) :
    Ensures may base (Underway files base output D name s r₁)
      (request (.rename (staging.join ⟨m⟩) output)) n r
      fun result _ r' => result ≠ .ok () ∧ r' = r :=
  ensures_rename_unreached hr.underway (fun _ hwalk => hcut (hr.steady_of_walkThrough h hm hwalk))
    fun _ _ _ => ⟨nofun, rfl⟩

variable (hsteady : IsSteady base output name D r₁)
include hsteady

/-- With the earlier build away the new one takes its place, unless that is refused. -/
lemma ensures_install :
    Ensures may base (Underway files base output D name s r₁)
      (request (.rename (staging.join "out") output)) n r fun result m r' =>
        (result = .ok () → Replaced files base output D name r₁ r') ∧
          (result ≠ .ok () → r' = r ∧ n = m + 1) := by
  have hown := h.reaches_of_steady hr.sameOff h.own (h.own_of_steady hsteady)
  have hreach :=
    h.reaches_staging (h.reaches_of_steady hr.sameOff h.staging.reaches hsteady) hr.isDir
  obtain ⟨entries, hat, hbuild⟩ := exists_prepared hinside hr.labels
  have hmoved : r.Moved (D ++ [s]) "out" D name (.dir entries)
      ((r.erase (D ++ [s]) "out").put D name (.dir entries)) :=
    ⟨hat, hown.isDir, fun hp => absurd hp.length_le (by simp), h.not_output_prefix,
      fun heq => absurd (congrArg List.length heq) (by simp), rfl⟩
  have hreplaced : Replaced files base output D name r₁
      ((r.erase (D ++ [s]) "out").put D name (.dir entries)) :=
    ⟨⟨_, hmoved.at?_new, hbuild⟩, hr.legal, .inl hsteady⟩
  refine ensures_rename_free hr.underway (h.isLegal_out hr.parkedLegal) hr.legal ?_ hown (.inl rfl)
    hr.absent hmoved ⟨⟨?_, .inr (.inl hreplaced)⟩, fun _ => hreplaced, fun hne => absurd rfl hne⟩
    fun _ _ hm _ => ⟨nofun, fun _ => ⟨rfl, hm⟩⟩
  · rw [h.startOf_entry isName_out, h.way_entry isName_out, List.dropLast_concat]
    exact hreach
  · exact hr.sameOff.trans (hmoved.sameOff.widen (by simp))

omit hinside in
/-- The earlier build is put back, unless that is refused. -/
lemma ensures_restore :
    Ensures may base (Underway files base output D name s r₁)
      (request (.rename (staging.join "previous") output)) n r fun result m r' =>
        (result = .ok () → r'.at? (D ++ [name]) = r₁.at? (D ++ [name])) ∧
          (result ≠ .ok () → n = m + 1 ∧ may (.rename (staging.join "previous") output)) := by
  have hown := h.reaches_of_steady hr.sameOff h.own (h.own_of_steady hsteady)
  have hreach :=
    h.reaches_staging (h.reaches_of_steady hr.sameOff h.staging.reaches hsteady) hr.isDir
  have hmoved : r.Moved (D ++ [s]) "previous" D name node
      ((r.erase (D ++ [s]) "previous").put D name node) :=
    ⟨hr.parked, hown.isDir, fun hp => absurd hp.length_le (by simp), h.not_output_prefix,
      fun heq => absurd (congrArg List.length heq) (by simp), rfl⟩
  have hback := hmoved.at?_new.trans hr.previous.symm
  refine ensures_rename_free hr.underway hr.parkedLegal hr.legal ?_ hown ?_ hr.absent hmoved
    ⟨⟨?_, .inl hback⟩, fun _ => hback, fun hne => absurd rfl hne⟩
    fun _ _ hm hmay => ⟨nofun, fun _ => ⟨hm, hmay⟩⟩
  · rw [h.startOf_entry isName_previous, h.way_entry isName_previous, List.dropLast_concat]
    exact hreach
  · refine hr.slash.imp_right fun hslash => ⟨?_, hslash⟩
    rw [Path.endsWithSlash_join isName_previous.isAbsolute (by decide),
      isName_previous.endsWithSlash]
  · exact hr.sameOff.trans (hmoved.sameOff.widen (by simp))

end

/-! ### The whole swap

If nothing stood at the output there is one rename, and otherwise two or three.  What comes of them
is `Swapped`: the build has been replaced, or the swap has failed, and then `Failed` says what is
left. -/

/-- What is left if a swap fails: what has stood at the output still does, or it is in the staging
directory and the way there is cut off. -/
def Failed (base : Location) (output : Path) (D : Location) (name s : String) (r₁ r : FileTree) :
    Prop :=
  r.at? (D ++ [name]) = r₁.at? (D ++ [name]) ∨
    ¬ IsSteady base output name D r₁ ∧ ∃ node, r₁.at? (D ++ [name]) = some node ∧
      r.at? (D ++ [name]) = none ∧ r.at? (D ++ [s] ++ ["previous"]) = some node

/-- What comes of a swap. -/
def Swapped (files : List OutputFile) (base : Location) (output : Path) (D : Location)
    (name s : String) (r₁ : FileTree) (result : Except WriteError Unit) (r : FileTree) : Prop :=
  match result with
  | .ok _ => Replaced files base output D name r₁ r
  | .error _ => Failed base output D name s r₁ r

/-- **The swap** replaces what stands at the output by the new build or leaves it, unless what
would put it back is refused; then it fails. -/
theorem ensures_swap (hr : Preparing D s r₁ r)
    (hlabels : ∀ l, r.label? (D ++ [s] ++ ["out"] ++ l) = expected files l) :
    Ensures may base (Underway files base output D name s r₁)
      (swap (staging.join "out") output (staging.join "previous")).run n r
      fun result _ r' => result = .ok () ∨ n ≤ 1 ∨
        ¬ may (.rename (staging.join "previous") output) →
          Swapped files base output D name s r₁ result r' := by
  have hkept : Failed base output D name s r₁ r := .inl (hr.at?_output h)
  refine Ensures.liftThen (ensures_kind (Q := fun _ _ r' => r' = r) (hr.underway h) rfl
    fun _ _ _ _ => rfl) ?_
  rintro (reason | kind) m r' hm hr' rfl
  · -- nothing to be seen at the output
    refine ensures_writing ((ensures_replace h hinside hr hlabels).weaken ?_)
    rintro (reason | u) m' r'' - - ⟨hok, herror⟩ -
    · rw [herror nofun]
      exact hkept
    · exact hok rfl
  refine Ensures.andThen (ensures_writing (Q := fun result _ r'' =>
    (result = .ok () → ∃ node, Away files output staging D name s node r₁ r'') ∧
      (∀ e, result = .error e → r'' = r')) ((ensures_moveAway h hr hlabels).weaken ?_)) ?_ ?_
  · rintro (reason | u) m' r'' - - ⟨hok, herror⟩
    · exact ⟨nofun, fun _ _ => herror nofun⟩
    · exact ⟨fun _ => hok rfl, nofun⟩
  · rintro u m' r'' hm' hr'' ⟨haway, -⟩
    obtain ⟨node, haway⟩ := haway rfl
    by_cases hsteady : IsSteady base output name D r₁
    · refine Ensures.liftThen (ensures_install h hinside haway hsteady) ?_
      rintro (reason | u) k r₃ - hr₃ ⟨hok, herror⟩
      · -- the new build is refused its place
        obtain ⟨rfl, hk⟩ := herror nofun
        refine Ensures.liftThen (ensures_restore h haway hsteady) ?_
        rintro (restore | u) k' r₄ - hr₄ ⟨hback, hlost⟩
        · obtain ⟨hk', hmay⟩ := hlost nofun
          refine Ensures.liftThen (ensures_log hr₄) fun u k'' r₅ _ hr₅ _ => ensures_throw hr₅ ?_
          rintro (hok | hone | hnot)
          · cases hok
          · have htwo : k' + 1 + 1 ≤ 1 := hk' ▸ hk ▸ (hm'.trans hm).trans hone
            have hle : (1 : ℕ∞) + 1 ≤ 1 := (add_le_add_left le_add_self 1).trans htwo
            exact absurd hle (by norm_num)
          · exact absurd hmay hnot
        · exact ensures_throw hr₄ fun _ => .inl (hback rfl)
      · exact ensures_pure hr₃ fun _ => hok rfl
    · -- the way to the output leads through the output
      have hcut : Failed base output D name s r₁ r'' :=
        .inr ⟨hsteady, node, haway.previous, haway.absent, haway.parked⟩
      refine Ensures.liftThen (ensures_rename_cutOff h haway isName_out hsteady) ?_
      rintro (reason | u) k r₃ - hr₃ ⟨hne, rfl⟩
      · refine Ensures.liftThen (ensures_rename_cutOff h haway isName_previous hsteady) ?_
        rintro (restore | u) k' r₄ - hr₄ ⟨hne, rfl⟩
        · refine Ensures.liftThen (ensures_log hr₄) ?_
          rintro u k'' r₅ - hr₅ rfl
          exact ensures_throw hr₅ fun _ => hcut
        · exact absurd rfl hne
      · exact absurd rfl hne
  · rintro e m' r'' - - ⟨-, herror⟩ -
    rw [herror e rfl]
    exact hkept

/-- **Staging** makes the new build and swaps it into place. -/
theorem ensures_stage :
    Ensures may base (Underway files base output D name s r₁) (stage staging output files).run n
      (r₁.put D s (.dir [])) fun result _ r => result = .ok () ∨ n ≤ 1 ∨
        ¬ may (.rename (staging.join "previous") output) →
          Swapped files base output D name s r₁ result r := by
  have hkeep : ∀ r, Preparing D s r₁ r → Underway files base output D name s r₁ r :=
    fun r hr => hr.underway h
  rw [stage]
  refine Ensures.andThen ((ensures_writing_reset h.toGround).widen hkeep) ?_ ?_
  · rintro u m r hm - ⟨hr, hlabels⟩
    obtain ⟨hreach, hlabels⟩ := hlabels rfl
    refine Ensures.andThen
      ((ensures_writeFiles_staged h.toGround hinside hr hreach hlabels).widen hkeep) ?_ ?_
    · rintro u m' r' hm' - ⟨hr', hlabels'⟩
      refine Ensures.andThen (ensures_swap h hinside hr' (hlabels' rfl)) ?_ ?_
      · intro u m'' r'' _ hr'' hreplaced
        refine Ensures.lift ((ensures_log hr'').weaken ?_)
        rintro u k r₃ - - rfl -
        exact hreplaced (.inl rfl)
      · intro e m'' r'' _ _ hfailed hcases
        exact hfailed (hcases.imp_right (Or.imp_left (hm'.trans hm).trans))
    · rintro e m' r' - - ⟨hr', -⟩ -
      exact .inl (hr'.at?_output h)
  · rintro e m r - - ⟨hr, -⟩ -
    exact .inl (hr.at?_output h)

end

/-! ### Swaps that cannot succeed

A swap does not report success by its last step alone.  Where both of the renames that could put the
new build in place fail, so does the swap. -/

section
variable {may : Request → Prop} {base D : Location} {output staging : Path} {name : String}
  {r₁ r : FileTree} {n : ℕ∞} {files : List OutputFile}

/-- A swap does not succeed unless one of its first renames does. -/
lemma ensures_swap_fails {staged previous : Path}
    (haway : ∀ {m : ℕ∞}, Ensures may base (fun _ => True) (request (.rename output previous)) m r
      fun result _ _ => result ≠ .ok ())
    (hinstall : ∀ {m : ℕ∞}, Ensures may base (fun _ => True) (request (.rename staged output)) m r
      fun result _ _ => result ≠ .ok ()) :
    Ensures may base (fun _ => True) (swap staged output previous).run n r
      fun result _ _ => result ≠ .ok () := by
  refine Ensures.liftThen (ensures_kind (Q := fun _ _ r' => r' = r) trivial rfl
    fun _ _ _ _ => rfl) ?_
  rintro (reason | kind) m r' - - rfl
  · refine ensures_writing (hinstall.weaken ?_)
    rintro (reason | u) m' r'' - - hne
    · exact nofun
    · exact absurd rfl hne
  · refine Ensures.andThen (ensures_writing (Q := fun result _ _ => result ≠ .ok ())
      (haway.weaken ?_)) (fun _ _ _ _ _ hne => absurd rfl hne) fun _ _ _ _ _ _ => nofun
    rintro (reason | u) m' r'' - - hne
    · exact nofun
    · exact absurd rfl hne

/-- A build that is staged at the output itself does not take its place: nothing is renamed into
itself, or to what it is in. -/
lemma ensures_swap_self (h : Ground base output staging name name D r₁)
    (hr : Preparing D name r₁ r) :
    Ensures may base (fun _ => True)
      (swap (staging.join "out") output (staging.join "previous")).run n r
      fun result _ _ => result ≠ .ok () := by
  have hkeeps := h.keeps_of_staging hr.sameOff
  have hown := h.own.keeps hkeeps
  have hreach := h.reaches_staging (h.staging.reaches.keeps hkeeps) hr.isDir
  have hstart := h.startOf_entry isName_previous
  refine ensures_swap_fails ?_ ?_
  · intro m
    refine ensures_rename trivial (by rw [hstart]; exact hreach.isDir_start) ?_ ?_
      fun _ _ _ => nofun
    · intro d m d' m' node r' hsource htarget hd hd' hmoved _ _
      obtain rfl := (Reaches.mk hown.isDir_start hd).unique hown
      obtain rfl := hsource.toEndsIn.unique h.ends
      have hd' := h.eq_of_walkThrough_entry isName_previous hreach hd'.walk
      exact absurd (hd' ▸ List.prefix_refl d') hmoved.not_below
    · intro d m hd hd' _ _
      have hS := h.eq_of_walkThrough_entry isName_previous hreach hd'.walk
      have hD := (Reaches.mk hown.isDir_start hd).unique hown
      exact absurd (congrArg List.length (hS.symm.trans hD)) (by simp)
  · intro m
    refine ensures_rename trivial hown.isDir_start ?_ ?_ fun _ _ _ => nofun
    · intro d m d' m' node r' hsource htarget hd hd' hmoved _ _
      have hd := h.eq_of_walkThrough_entry isName_out hreach hd
      obtain rfl := hd'.unique hown
      obtain rfl := htarget.toEndsIn.unique h.ends
      exact absurd (hd ▸ List.prefix_refl d) hmoved.not_above
    · intro d m hd hd' _ _
      have hS := h.eq_of_walkThrough_entry isName_out hreach hd
      exact absurd (congrArg List.length (hS.symm.trans (hd'.unique hown))) (by simp)

/-- Staging at the output itself fails. -/
lemma ensures_stage_self (h : Ground base output staging name name D r₁)
    (hinside : ∀ f ∈ files, f.path.IsInside) :
    Ensures may base (fun _ => True) (stage staging output files).run n (r₁.put D name (.dir []))
      fun result _ _ => result ≠ .ok () := by
  rw [stage]
  refine Ensures.andThen ((ensures_writing_reset h).widen fun _ _ => trivial) ?_
    fun _ _ _ _ _ _ => nofun
  rintro u m r - - ⟨hr, hlabels⟩
  obtain ⟨hreach, hlabels⟩ := hlabels rfl
  refine Ensures.andThen ((ensures_writeFiles_staged h hinside hr hreach hlabels).widen
    fun _ _ => trivial) ?_ fun _ _ _ _ _ _ => nofun
  rintro u m' r' - - ⟨hr', -⟩
  refine Ensures.andThen (ensures_swap_self h hr') ?_ fun _ _ _ _ _ _ => nofun
  exact fun u _ _ _ _ hne => absurd rfl hne

end

end Build

end WorkerGen
