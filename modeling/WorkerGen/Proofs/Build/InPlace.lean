import Mathlib
import WorkerGen.Proofs.Build.Atomicity

/-!
# What replacing an output directory leads to

`Rebuilt` says what a tree is in which an output directory has been replaced: the build stands at
the output, the directories on the way to it are there, and all else is what it was
(`Rebuilt.label?_eq`).  So it does not depend on what stood at the output, nor on how it was
replaced (`Rebuilt.label?_unique`), and replacing twice is replacing once (`Rebuilt.label?_again`).
These three are what makes the two strategies comparable: each is shown to lead to `Rebuilt`, and
nothing has to be known of the runs after that.

In between stands the tree with the directories that are made for the output.  If the directory that
the output is in was there, that tree is the one of the beginning; if it was missing and the way
does not go back, the tree has grown along the way, and two trees that have so grown lead to the
same place.

A build in place ends so if it succeeds (`ensures_writeInPlace`).  It removes what stands at the
output, makes the output directory with its own, and writes the files.  A link that the path says is
a directory is left out: the path then leads to what the link points to, and the link itself is not
replaced.
-/

namespace WorkerGen

namespace Build

open FileTree Script

/-! ## Rebuilt outputs

The parts of `Rebuilt` speak of the way, of the tree in between and of the output.  The way to the
output must not lead through the output, or replacing it would change where the path leads. -/

/-- Whether a tree comes from another by replacing what stands at an output, which is in `D`, by the
build of some files.  In between stands the tree with the directories that are made for the output.
-/
structure Rebuilt (files : List OutputFile) (base : Location) (output : Path) (name : String)
    (D : Location) (r₀ r₁ r : FileTree) : Prop where
  legal : output.IsLegal name
  own : r₁.Reaches (startOf base output) output.way.dropLast D
  clear : (r₁.erase D name).Reaches (startOf base output) output.way.dropLast D
  same : (∃ D, r₀.Reaches (startOf base output) output.way.dropLast D) → r₁ = r₀
  grows : (¬ ∃ D, r₀.Reaches (startOf base output) output.way.dropLast D) → ".." ∉ output.way ∧
    ∃ more, more <+: [name, "handlers"] ∧
      Grown (startOf base output) (output.way.dropLast ++ more) r₀ r₁
  off : ∀ l, ¬ D ++ [name] <+: l → r.label? l = r₁.label? l
  build : ∀ l, r.label? (D ++ [name] ++ l) = expected files l

namespace Rebuilt

variable {files : List OutputFile} {base D D' : Location} {output : Path} {name : String}
  {r₀ r₁ r₁' r r' : FileTree}

lemma reaches (h : Rebuilt files base output name D r₀ r₁ r) :
    r.Reaches (startOf base output) output.way.dropLast D := h.clear.of_erase h.off

/-- The build stands at the output. -/
lemma standing (h : Rebuilt files base output name D r₀ r₁ r)
    (hinside : ∀ f ∈ files, f.path.IsInside) :
    ∃ t, r.standing base output = some t ∧ IsBuild files t := by
  obtain ⟨entries, hat, hbuild⟩ := exists_prepared hinside h.build
  exact ⟨_, (standing_of_reaches h.legal h.reaches).trans hat, hbuild⟩

/-- **What has been replaced, and nothing else.** -/
theorem label?_eq (h : Rebuilt files base output name D r₀ r₁ r) (l : Location)
    (hl : ¬ D ++ [name] <+: l) :
    r.label? l = if l <+: D then some .dir else r₀.label? l := by
  rw [h.off l hl]
  split_ifs with habove
  · exact label?_eq_dir_iff.mpr (h.own.isDir.above habove)
  · by_cases hreach : ∃ D, r₀.Reaches (startOf base output) output.way.dropLast D
    · rw [h.same hreach]
    · obtain ⟨hdown, more, hmore, hgrown⟩ := h.grows hreach
      have hno : ∀ x, ¬ r₀.Reaches _ _ x := fun x hx => hreach ⟨x, hx⟩
      rcases hgrown.label?_cases (isStep_of_mem_dropLast hdown) hno h.own l with
        hsame | ⟨-, -, hprefix⟩
      · exact hsame
      · rcases List.prefix_or_prefix_of_prefix hprefix (List.prefix_append D more) with hp | hp
        · exact absurd hp habove
        · obtain ⟨u, rfl⟩ := hp
          rw [List.prefix_append_right_inj] at hprefix
          have hu := hprefix.trans hmore
          cases u with
          | nil => exact absurd (by rw [List.append_nil]) habove
          | cons t u =>
              obtain ⟨rfl, -⟩ := List.cons_prefix_cons.mp hu
              exact absurd ⟨u, by simp⟩ hl

/-- The directory of an output that is replaced does not depend on how. -/
lemma unique (h : Rebuilt files base output name D r₀ r₁ r)
    (h' : Rebuilt files base output name D' r₀ r₁' r') : D = D' := by
  by_cases hreach : ∃ D, r₀.Reaches (startOf base output) output.way.dropLast D
  · have hown := h.own
    have hown' := h'.own
    rw [h.same hreach] at hown
    rw [h'.same hreach] at hown'
    exact hown.unique hown'
  · obtain ⟨hdown, more, -, hgrown⟩ := h.grows hreach
    obtain ⟨-, more', -, hgrown'⟩ := h'.grows hreach
    exact hgrown.unique hgrown' (isStep_of_mem_dropLast hdown) (List.prefix_append _ more)
      (List.prefix_append _ more') (fun x hx => hreach ⟨x, hx⟩) h.own h'.own

/-- **The tree does not depend on how an output is replaced.** -/
theorem label?_unique (h : Rebuilt files base output name D r₀ r₁ r)
    (h' : Rebuilt files base output name D' r₀ r₁' r') (l : Location) :
    r.label? l = r'.label? l := by
  obtain rfl := h.unique h'
  by_cases hl : D ++ [name] <+: l
  · obtain ⟨rest, rfl⟩ := hl
    rw [h.build, h'.build]
  · rw [h.label?_eq l hl, h'.label?_eq l hl]

/-- **What has been replaced once is replaced again** without any change. -/
theorem label?_again (h : Rebuilt files base output name D r₀ r₁ r)
    (h' : Rebuilt files base output name D' r r₁' r') (l : Location) :
    r'.label? l = r.label? l := by
  have hown' := h'.own
  rw [h'.same ⟨D, h.reaches⟩] at hown'
  obtain rfl := h.reaches.unique hown'
  by_cases hl : D ++ [name] <+: l
  · obtain ⟨rest, rfl⟩ := hl
    rw [h.build, h'.build]
  · rw [h'.label?_eq l hl]
    split_ifs with habove
    · exact (label?_eq_dir_iff.mpr (h.reaches.isDir.above habove)).symm
    · rfl

end Rebuilt

/-! ## Building in place

Three trees follow one another: the one of the beginning, the one in which nothing stands at the
output, and those with new directories.  `Removed` ties the second to the first.  From there the
directory of the output is there or it is not, and each case has its lemma for what is made. -/

/-- What holds once nothing stands at an output any more. -/
structure Removed (base : Location) (output : Path) (name : String) (r₀ r : FileTree) : Prop where
  nothing : r.standing base output = none
  off : ∀ D, r₀.Reaches (startOf base output) output.way.dropLast D →
    ∀ l, ¬ D ++ [name] <+: l → r.label? l = r₀.label? l
  same : (¬ ∃ D, r₀.Reaches (startOf base output) output.way.dropLast D) → r = r₀

section
variable {may : Request → Prop} {base : Location} {output : Path} {name : String} {n : ℕ∞}
  {r₀ r₁ r : FileTree} {files : List OutputFile}

/-- The directory of the handlers is only made in an output that the system looks for. -/
lemma ensures_makeDirs_legal (hends : output.EndsIn name) (hr : r.IsDir (startOf base output)) :
    Ensures may base (fun r' => r'.IsDir (startOf base output))
      (makeDirs (handlersIn output)).run n r fun result _ _ => result = .ok () →
        output.IsLegal name := by
  have hstart : startOf base (handlersIn output) = startOf base output := by
    rw [startOf, startOf, isAbsolute_handlersIn]
  refine (ensures_makeDirs hr (fun r' hr' => hstart ▸ hr')
    fun a _ r' d m hr' _ _ habsent => ?_).weaken fun result m r' _ hr' h hresult => ?_
  · have hkeeps : Keeps r' (r'.put d m (.dir [])) := .put (by simp [habsent])
    rw [← label?_eq_dir_iff] at hr' ⊢
    exact hkeeps _ _ hr' trivial
  · have hdir : r'.DirAt base (handlersIn output) := by
      refine (h hresult).resolve_right fun hnone => ?_
      obtain ⟨q, hq⟩ := Path.exists_parent? (p := handlersIn output) (by simp [way_handlersIn])
      exact absurd (hnone.symm.trans hq) (by simp)
    obtain ⟨place, node, hplace, -⟩ := hdir.exists_place
    obtain ⟨hlegal, hwalk, -⟩ :=
      walkThrough_of_place hplace (last_of_place (getLast?_handlersIn output) hplace)
    rw [hstart, way_handlersIn, List.dropLast_concat, hends.way_eq] at hwalk
    refine ⟨hends, Path.check_of_join (by decide) ?_ hlegal.check, ?_⟩
    · intro hempty
      have hnames := hends.getLast?
      rw [Path.names_of_isEmpty (by simp [hempty])] at hnames
      exact absurd hnames (by simp)
    · exact (Reaches.mk hr' hwalk).notLong hends.isStep

/-- The directories on the way to the handlers are made. -/
lemma ensures_makeDirs_handlersIn (hends : output.EndsIn name) (hdown : ".." ∉ output.way)
    (hr : r.IsDir (startOf base output)) :
    Ensures may base (Grown (startOf base output) (output.way.dropLast ++ [name, "handlers"]) r)
      (makeDirs (handlersIn output)).run n r fun _ _ _ => True := by
  have hway : (handlersIn output).way = output.way.dropLast ++ [name, "handlers"] := by
    rw [way_handlersIn, hends.way_eq, List.dropLast_concat, List.append_assoc]
    rfl
  have hstart : startOf base (handlersIn output) = startOf base output := by
    rw [startOf, startOf, isAbsolute_handlersIn]
  have hsteps : ∀ s ∈ (handlersIn output).way, IsStep s := by
    intro s hs
    refine ⟨(Path.mem_way hs).2.1, ?_⟩
    rintro rfl
    rw [way_handlersIn] at hs
    exact hdown (by simpa using hs)
  have hgrown : Ensures may base
      (Grown (startOf base (handlersIn output)) (handlersIn output).way r)
      (makeDirs (handlersIn output)).run n r fun _ _ _ => True :=
    ensures_makeDirs_grown hsteps (hstart.symm ▸ hr)
  rwa [hstart, hway] at hgrown

/-- What stood at the output is removed, and nothing else. -/
lemma ensures_removed (hends : output.EndsIn name) (hstart : r₀.IsDir (startOf base output))
    (hlink : output.endsWithSlash = true → ∀ D,
      r₀.Reaches (startOf base output) output.way.dropLast D →
        ∀ target, r₀.at? (D ++ [name]) ≠ some (.link target)) :
    Ensures may base (fun _ => True) (tolerant (removeAll output)).run 0 r₀
      fun result _ r => result = .ok () → Removed base output name r₀ r := by
  by_cases hreach : ∃ D, r₀.Reaches (startOf base output) output.way.dropLast D
  · obtain ⟨D, hD⟩ := hreach
    refine Ensures.tolerant ((ensures_removeAll hends hD.walk fun hslash => hlink hslash D hD).mono
      (fun _ _ => trivial) ?_)
    intro result m r' hm hr' hpost
    obtain ⟨hok, hnone⟩ := hpost rfl
    have hremoved : r'.standing base output = none → Removed base output name r₀ r' := fun hnone =>
      ⟨hnone, fun D' hD' l hl => hr'.sameOff.label? l (by simpa [hD.unique hD'] using hl),
        fun hno => absurd ⟨D, hD⟩ hno⟩
    rcases result with (reason | u)
    · cases reason
      case notFound =>
        obtain ⟨rfl, hnone⟩ := hnone rfl
        exact fun _ => hremoved hnone
      all_goals exact nofun
    · exact fun _ => hremoved (hok rfl)
  · have hnone : r₀.standing base output = none :=
      (FileTree.standing_cases hends hstart).resolve_left fun hp => by
        obtain ⟨-, D, hD, -⟩ := hp
        exact hreach ⟨D, hD⟩
    refine Ensures.tolerant ((ensures_removeAll_of_nothing trivial hnone).weaken ?_)
    rintro (reason | u) m r' - - ⟨rfl, hne⟩
    · cases reason
      case notFound => exact fun _ => ⟨hnone, fun _ _ _ _ => rfl, fun _ => rfl⟩
      all_goals exact nofun
    · exact absurd rfl hne

/-! ### A new output directory

The output is made in a directory that is there, or together with those it is in.  In the first case
only entries of that directory are new, and in the second the tree has grown along the way. -/

/-- The output is made in its directory. -/
lemma ensures_makeDirs_there {D : Location} (hr : Removed base output name r₀ r)
    (hlegal : output.IsLegal name)
    (hD : r₀.Reaches (startOf base output) output.way.dropLast D)
    (herase : (r₀.erase D name).Reaches (startOf base output) output.way.dropLast D) :
    Ensures may base (fun _ => True) (makeDirs (handlersIn output)).run n r
      fun result _ r' => result = .ok () → Rebuilt [] base output name D r₀ r₀ r' := by
  have hD' := herase.of_erase (hr.off D hD)
  have habsent := (standing_of_reaches hlegal hD').symm.trans hr.nothing
  have hfresh : Fresh (startOf base output) output.way.dropLast name r r :=
    .missing hD'.isDir_start (fun x => hD'.not_of_absent hlegal.isStep habsent) fun _ => rfl
  refine (ensures_makeFresh hlegal.way_eq hlegal.isStep (.inr ⟨D, hD'⟩) hfresh).mono
    (fun _ _ => trivial) fun result m r' _ hr' hmade hresult => ?_
  obtain ⟨d, hd, hlong, hat⟩ := hmade hresult
  obtain ⟨rfl, -, hoff⟩ := hr'.eq_of_reaches hlegal.isStep hD' hd hlong ⟨_, hat⟩
  refine ⟨hlegal, hD, herase, fun _ => rfl, fun hno => absurd ⟨d, hD⟩ hno, fun l hl => ?_,
    label?_fresh hat⟩
  rw [hoff.label? l (by simpa using hl), hr.off d hD l hl]

/-- The output is made with its directory. -/
lemma ensures_makeDirs_missing (hlegal : output.IsLegal name) (hdown : ".." ∉ output.way)
    (hno : ¬ ∃ D, r.Reaches (startOf base output) output.way.dropLast D)
    (hr : r.IsDir (startOf base output)) :
    Ensures may base (fun _ => True) (makeDirs (handlersIn output)).run n r
      fun result _ r' => result = .ok () → ∃ D, Rebuilt [] base output name D r r' r' := by
  have hno' : ∀ x, ¬ r.Reaches (startOf base output) output.way.dropLast x :=
    fun x hx => hno ⟨x, hx⟩
  have hfresh : Fresh (startOf base output) output.way.dropLast name r r := by
    refine .missing hr (fun x hx => ?_) fun _ => rfl
    obtain ⟨y, hy⟩ := hx.of_append
    exact hno' y hy
  have hdown' : ".." ∉ output.way.dropLast := fun h => hdown (List.dropLast_subset _ h)
  refine ((ensures_makeFresh hlegal.way_eq hlegal.isStep (.inl hdown') hfresh).and
    (ensures_makeDirs_handlersIn hlegal.toEndsIn hdown hr)).mono (fun _ _ => trivial) ?_
  rintro result m r' - ⟨-, hgrown⟩ ⟨hmade, -⟩ hresult
  obtain ⟨d, hd, -, hat⟩ := hmade hresult
  have herase := hgrown.reaches_erase (isStep_of_mem_dropLast hdown) hno' hd name
  exact ⟨d, hlegal, hd, herase, fun h => absurd h hno,
    fun _ => ⟨hdown, _, List.prefix_rfl, hgrown⟩, fun _ _ => rfl, label?_fresh hat⟩

/-- In a new output the files are written. -/
lemma ensures_writeFiles_rebuilt {D : Location} (hinside : ∀ f ∈ files, f.path.IsInside)
    (h : Rebuilt [] base output name D r₀ r₁ r) :
    Ensures may base (fun _ => True) (writeFiles output files).run n r
      fun result _ r' => result = .ok () → Rebuilt files base output name D r₀ r₁ r' := by
  have hdir : r.IsDir (D ++ [name]) := by
    have hroot := h.build []
    rw [List.append_nil] at hroot
    exact label?_eq_dir_iff.mp hroot
  have hreach : r.Reaches (startOf base output) output.way (D ++ [name]) := by
    rw [h.legal.way_eq]
    exact h.reaches.append hdir (by simpa using ⟨h.legal.isStep, h.legal.notLong⟩)
  refine (ensures_writeFiles hinside hreach h.build).mono (fun _ _ => trivial)
    fun result m r' _ hr' hlabels hresult => ?_
  refine ⟨h.legal, h.own, h.clear, h.same, h.grows, fun l hl => ?_, hlabels hresult⟩
  rw [hr'.1.label? l (by simpa using hl), h.off l hl]

/-- **A build in place** that succeeds replaces what stood at the output, unless that is a link and
the path says that it is a directory. -/
theorem ensures_writeInPlace (hends : output.EndsIn name)
    (hbase : ∀ name ∈ base, Path.IsName name ∧ isLong name = false)
    (hstart : r₀.IsDir (startOf base output)) (hclear : IsClear base output name r₀)
    (hinside : ∀ f ∈ files, f.path.IsInside)
    (hlink : output.endsWithSlash = true → ∀ D,
      r₀.Reaches (startOf base output) output.way.dropLast D →
        ∀ target, r₀.at? (D ++ [name]) ≠ some (.link target)) :
    Ensures may base (fun _ => True) (writeInPlace output files).run 0 r₀
      fun result _ r => result = .ok () → ∃ D r₁, Rebuilt files base output name D r₀ r₁ r := by
  have hillegal : ∀ {m : ℕ∞} {r : FileTree}, ¬ output.IsLegal name →
      r.IsDir (startOf base output) →
      Ensures may base (fun _ => True) (makeDirs (handlersIn output)).run m r
        fun result _ r' => result = .ok () → ∃ D r₁, Rebuilt [] base output name D r₀ r₁ r' :=
    fun hill hr => (ensures_makeDirs_legal hends hr).mono (fun _ _ => trivial)
      fun _ _ _ _ _ h hresult => absurd (h hresult) hill
  have hmake : ∀ {m : ℕ∞} {r : FileTree}, Removed base output name r₀ r →
      Ensures may base (fun _ => True) (makeDirs (handlersIn output)).run m r
        fun result _ r' => result = .ok () → ∃ D r₁, Rebuilt [] base output name D r₀ r₁ r' := by
    intro m r hr
    rcases hclear with ⟨D, hD, hsteady⟩ | ⟨hno, hdown⟩
    · have herase := reaches_of_route_of_lost hends.way_ne_nil hbase hD.isDir_start
        (Lost.erase r₀ D name) hsteady
      by_cases hlegal : output.IsLegal name
      · exact (ensures_makeDirs_there hr hlegal hD herase).weaken
          fun _ _ _ _ _ h hresult => ⟨D, r₀, h hresult⟩
      · exact hillegal hlegal (herase.of_erase (hr.off D hD)).isDir_start
    · obtain rfl := hr.same hno
      by_cases hlegal : output.IsLegal name
      · refine (ensures_makeDirs_missing hlegal hdown hno hstart).weaken
          fun _ _ r' _ _ h hresult => ?_
        obtain ⟨D, hD⟩ := h hresult
        exact ⟨D, r', hD⟩
      · exact hillegal hlegal hstart
  have hreset : Ensures may base (fun _ => True) (reset output).run 0 r₀
      fun result _ r => result = .ok () → ∃ D r₁, Rebuilt [] base output name D r₀ r₁ r :=
    (ensures_removed hends hstart hlink).andThen (fun _ _ _ _ _ hr => hmake (hr rfl))
      fun _ _ _ _ _ _ => nofun
  rw [writeInPlace]
  refine (ensures_writing (Q := fun result _ r => result = .ok () →
    ∃ D r₁, Rebuilt [] base output name D r₀ r₁ r) (hreset.weaken ?_)).andThen ?_
      fun _ _ _ _ _ _ => nofun
  · rintro (reason | u) m r - - h hresult
    · cases hresult
    · exact h rfl
  · rintro u m r - - h
    obtain ⟨D, r₁, h⟩ := h rfl
    exact (ensures_writeFiles_rebuilt hinside h).weaken
      fun _ _ _ _ _ h hresult => ⟨D, r₁, h hresult⟩

end

end Build

end WorkerGen
