import Mathlib
import WorkerGen.Proofs.Build.Replacing

/-!
# What stands at the output of a staged build

A staged build replaces what stands at its output by two renames: what is there is moved away, then
the new build takes its place.

* `standing_of_interrupted` — whenever it is interrupted, the output holds what it held before or
  the new build, but for the moment between the two renames: then it holds nothing, and what it held
  is in the staging directory.  Nothing else changes beside it but that directory.
* `replaced_or_kept` — whatever is refused, what stood at the output is lost only if it is replaced,
  unless the rename that would put it back is refused.  Then the staging directory is removed with
  what is in it (`not_replaced_or_kept`).
* `standing_of_refused_one` — where at most one request is refused the result of the build says what
  stands at the output.

These are statements about worlds and their runs.  Each is what `ensures_writeStaged` or a part of
it says, with the invariant of the logic read as a property of every world that a run goes through,
and with what was known of trees said of what stands at a path (`World.standing`).  The two moments
that they are sharp at are shown by runs: the one between the renames
(`standing_of_interrupted_between`), and the one in which both are refused.
-/

namespace WorkerGen

open FileTree

/-! ## Worlds

A world is sound if its working directory is there, as it is for a program that has been started.
What stands at a path is looked up in the directory that the path leads to. -/

namespace World

/-- Whether a world is one that a system can be in: the working directory is there, its names are
those of entries, and names that are hard to guess can be part of one. -/
structure IsSound (w : World) : Prop where
  workDir : w.files.IsDir w.workDir
  names : ∀ name ∈ w.workDir, Path.IsName name ∧ isLong name = false
  randomNames : ∀ name ∈ w.randomNames, '/' ∉ name.toList

/-- What stands at a path; a link at its end is not followed. -/
def standing (w : World) (p : Path) : Option FileTree := w.files.standing w.workDir p

/-- Whether the directory that a path is in is at a location. -/
def IsIn (w : World) (p : Path) (D : Location) : Prop :=
  w.files.Reaches (startOf w.workDir p) p.way.dropLast D

/-- Whether the build of some files stands at a path. -/
def HasBuild (w : World) (p : Path) (files : List OutputFile) : Prop :=
  ∃ t, w.standing p = some t ∧ Build.IsBuild files t

section
variable {w : World} (h : w.IsSound)
include h

lemma IsSound.isOn : w.IsOn w.workDir w.files := ⟨rfl, rfl, h.randomNames⟩

lemma IsSound.isDir_start (p : Path) : w.files.IsDir (startOf w.workDir p) := by
  rw [startOf]
  split_ifs
  · exact h.workDir.above List.nil_prefix
  · exact h.workDir

end

end World

namespace Build

open Script

/-! ## What stands at the output at every moment

What holds at every moment of a staged build is about the tree in which the directory of the output
has been made.  To speak of the tree at the beginning it has to be known that the directory was
there, or that it did not have a way back in it. -/

section
variable {base D D' : Location} {output staging : Path} {name s m : String} {r₀ r₁ r : FileTree}
  {files : List OutputFile} (hends : output.EndsIn name)
  (hway : (∃ D, r₀.Reaches (startOf base output) output.way.dropLast D) ∨ ".." ∉ output.way)

include hends hway in
/-- Making the directory of an output leaves what stands at the output. -/
lemma Begun.standing_eq (hstart : r₀.IsDir (startOf base output)) (h : Begun base output r₀ r) :
    r.standing base output = r₀.standing base output := by
  by_cases hreach : ∃ D, r₀.Reaches (startOf base output) output.way.dropLast D
  · rw [h.same hreach]
  have hnone : r₀.standing base output = none :=
    (standing_cases hends hstart).resolve_left fun ⟨_, d, hd, _⟩ => hreach ⟨d, hd⟩
  rw [hnone]
  rcases standing_cases hends h.isDir with ⟨-, d, hd, hstanding⟩ | hstanding
  · rw [hstanding, at?_concat, h.new hreach (hway.resolve_left hreach) hd]
    rfl
  · exact hstanding

/-- **What stands at the output while a build is staged**: what stood there before, or the new
build, or nothing, and then what stood there is in the staging directory. -/
lemma Setting.standing_cases (h : Setting base output staging name s D r₁)
    (hr : Underway files base output D name s r₁ r) :
    r.standing base output = r₁.standing base output ∨
      (∃ t, r.standing base output = some t ∧ IsBuild files t) ∨
      ∃ node, r₁.standing base output = some node ∧ r.standing base output = none ∧
        r.at? (D ++ [s] ++ ["previous"]) = some node := by
  rcases hr.cases with hsame | hreplaced | ⟨node, hold, habsent, hparked⟩
  · exact .inl (standing_congr h.ends h.own (h.own.keeps (h.keeps_of_same hr.sameOff hsame)) hsame)
  · obtain ⟨entries, hat, hbuild⟩ := hreplaced.build
    have hown := (h.reaches_of_cases hr.sameOff (.inr hreplaced)).2
    exact .inr (.inl ⟨_, (standing_of_reaches hreplaced.legal hown).trans hat, hbuild⟩)
  · have hnone : r.standing base output = none := by
      cases hplace : r.place base output with
      | error reason => exact standing_of_error hplace
      | ok place =>
          have hlast := last_of_place h.ends hplace
          obtain ⟨-, hwalk, -⟩ := walkThrough_of_place hplace hlast
          rcases h.eq_or_error hr.sameOff habsent h.own with hok | herror
          · obtain rfl : D = place.dir := Except.ok.inj (hok.symm.trans hwalk)
            rw [standing_of_place hplace, World.nodeAt?_eq r hlast, habsent]
          · exact absurd (herror.symm.trans hwalk) (by simp)
    by_cases hlegal : output.IsLegal name
    · exact .inr (.inr ⟨node, (standing_of_reaches hlegal h.own).trans hold, hnone, hparked⟩)
    · have hnone₁ : r₁.standing base output = none :=
        (FileTree.standing_cases h.ends h.own.isDir_start).resolve_left fun hp => hlegal hp.1
      exact .inl (hnone.trans hnone₁.symm)

include hway in
/-- What stands at the output from the beginning of a staged build on. -/
lemma Begun.standing_cases (hstart : r₀.IsDir (startOf base output)) (hb : Begun base output r₀ r₁)
    (h : Setting base output staging name s D r₁) (hr : Underway files base output D name s r₁ r) :
    r.standing base output = r₀.standing base output ∨
      (∃ t, r.standing base output = some t ∧ IsBuild files t) ∨
      ∃ node, r₀.Reaches (startOf base output) output.way.dropLast D ∧
        r₀.standing base output = some node ∧ r.standing base output = none ∧
        r.at? (D ++ [s] ++ ["previous"]) = some node := by
  have hsame := hb.standing_eq h.ends hway hstart
  rcases h.standing_cases hr with heq | hbuild | ⟨node, hold, hnone, hparked⟩
  · exact .inl (heq.trans hsame)
  · exact .inr (.inl hbuild)
  · have hold₀ := hsame.symm.trans hold
    refine .inr (.inr ⟨node, ?_, hold₀, hnone, hparked⟩)
    rcases FileTree.standing_cases h.ends hstart with ⟨-, d, hd, -⟩ | hnothing
    · rw [← hb.same ⟨d, hd⟩]
      exact h.own
    · exact absurd (hnothing.symm.trans hold₀) (by simp)

/-- Whether the way to the directory of an output stays as it is when the output is replaced: it
does not lead through the output itself, or it is still to be made and does not go back. -/
def IsClear (base : Location) (output : Path) (name : String) (r : FileTree) : Prop :=
  (∃ D, r.Reaches (startOf base output) output.way.dropLast D ∧ IsSteady base output name D r) ∨
    (¬ ∃ D, r.Reaches (startOf base output) output.way.dropLast D) ∧ ".." ∉ output.way

lemma IsClear.reached_or_down (h : IsClear base output name r) :
    (∃ D, r.Reaches (startOf base output) output.way.dropLast D) ∨ ".." ∉ output.way := by
  rcases h with ⟨D, hD, -⟩ | ⟨-, hdown⟩
  · exact .inl ⟨D, hD⟩
  · exact .inr hdown

/-- The directory of an output that has been made is empty, and one that was there is steady. -/
lemma Begun.steady_or_absent (hclear : IsClear base output name r₀) (h : Begun base output r₀ r)
    (hD : r.Reaches (startOf base output) output.way.dropLast D) :
    IsSteady base output name D r ∨ r.at? (D ++ [name]) = none := by
  rcases hclear with ⟨D', hD', hsteady⟩ | ⟨hno, hdown⟩
  · obtain rfl := h.same ⟨D', hD'⟩
    rw [hD.unique hD']
    exact .inl hsteady
  · rw [at?_concat, h.new hno hdown hD]
    exact .inr rfl

/-- A build that has been staged stands at the output. -/
lemma StagedAt.built (h : StagedAt files base output name r₀ staging (.ok ()) D s r₁ r) :
    ∃ t, r.standing base output = some t ∧ IsBuild files t := by
  have hs : s ≠ name := fun hs => h.self hs rfl
  have hset : Setting base output staging name s D r₁ := ⟨h.ground, hs⟩
  have hreplaced : Replaced files base output D name r₁ r := h.swapped hs
  obtain ⟨entries, hat, hbuild⟩ := hreplaced.build
  have hown := (hset.reaches_of_cases (h.underway hs).sameOff (.inr hreplaced)).2
  exact ⟨_, (standing_of_reaches hreplaced.legal hown).trans hat, hbuild⟩

/-- **What a build that has been staged has come to**: the new build stands at the output, or what
has stood there. -/
lemma StagedAt.standing {result : Except WriteError Unit} (hends : output.EndsIn name)
    (hclear : IsClear base output name r₀) (hstart : r₀.IsDir (startOf base output))
    (h : StagedAt files base output name r₀ staging result D s r₁ r) (hs : s ≠ name) :
    (result = .ok () → ∃ t, r.standing base output = some t ∧ IsBuild files t) ∧
      (result ≠ .ok () → r.standing base output = r₀.standing base output) := by
  rcases result with (e | u)
  · have hset : Setting base output staging name s D r₁ := ⟨h.ground, hs⟩
    refine ⟨nofun, fun _ => ?_⟩
    rw [← h.begun.standing_eq hends hclear.reached_or_down hstart]
    rcases h.swapped hs with hsame | ⟨hcut, node, hold, -⟩
    · have hoff := (h.underway hs).sameOff
      exact standing_congr hends hset.own (hset.own.keeps (hset.keeps_of_same hoff hsame)) hsame
    · rcases h.begun.steady_or_absent hclear hset.own with hsteady | habsent
      · exact absurd hsteady hcut
      · exact absurd (habsent.symm.trans hold) (by simp)
  · exact ⟨fun _ => h.built, fun hne => absurd rfl hne⟩

/-! ## What is beside the output

In the directory of the output there is one more entry, with the name of a staging directory, and
above it nothing has changed. -/

/-- Whether nothing has changed in the directory of an output but what stands there, and one new
staging directory.  If that directory was missing, it may have been made. -/
structure IsApart (base : Location) (output : Path) (name : String) (r₀ r : FileTree) : Prop where
  there : ∀ D, r₀.Reaches (startOf base output) output.way.dropLast D → r = r₀ ∨
    ∃ s, IsStagingName s ∧ r₀.at? (D ++ [s]) = none ∧ SameOff [D ++ [name], D ++ [s]] r₀ r
  missing : (¬ ∃ D, r₀.Reaches (startOf base output) output.way.dropLast D) →
    (∀ l x, r₀.label? l = some x → r.label? l = some x) ∧
      ∀ D, r.Reaches (startOf base output) output.way.dropLast D →
        ∃ s, IsStagingName s ∧ ∀ m, m ≠ name → m ≠ s → r.at? (D ++ [m]) = none

/-- In an empty directory there is nothing. -/
lemma at?_below_empty (h : r.at? D = some (.dir [])) (m : String) : r.at? (D ++ [m]) = none := by
  rw [at?_concat, h]
  rfl

include hway in
lemma Begun.isApart (h : Begun base output r₀ r) : IsApart base output name r₀ r := by
  refine ⟨fun D hD => .inl (h.same ⟨D, hD⟩), fun hno => ⟨fun l x hl => ?_, fun D hD => ?_⟩⟩
  · exact (h.grows hno (hway.resolve_left hno)).label?_of_some hl
  · have hempty := h.new hno (hway.resolve_left hno) hD
    exact ⟨stagingStart ++ "", ⟨"", rfl⟩, fun m _ _ => at?_below_empty hempty m⟩

include hway in
lemma Begun.isApart_of_underway (hb : Begun base output r₀ r₁)
    (h : Setting base output staging name s D r₁) (hr : Underway files base output D name s r₁ r) :
    IsApart base output name r₀ r := by
  refine ⟨fun d hd => .inr ⟨s, h.staging.isStagingName, ?_⟩, fun hno => ?_⟩
  · obtain rfl := hb.same ⟨d, hd⟩
    rw [hd.unique h.own]
    exact ⟨h.staging.absent, hr.sameOff⟩
  · have hempty := hb.new hno (hway.resolve_left hno) h.own
    have habsent := at?_below_empty hempty
    have hkeeps : Keeps r₁ r := hr.sameOff.keeps (by simp [habsent])
    refine ⟨fun l x hl => ?_, fun d hd => ⟨s, h.staging.isStagingName, fun m hm hs => ?_⟩⟩
    · have hl₁ := (hb.grows hno (hway.resolve_left hno)).label?_of_some hl
      refine h.label?_of_apart hr.sameOff hl₁ ?_
      rintro ⟨rest, rfl⟩
      rw [label?_append, habsent] at hl₁
      exact absurd hl₁ (by simp)
    · have hbeside : ∀ x ∈ [D ++ [name], D ++ [s]], ¬ x <+: D ++ [m] ∧ ¬ D ++ [m] <+: x := by
        simpa using ⟨⟨Ne.symm hm, hm⟩, Ne.symm hs, hs⟩
      rw [hd.unique (h.own.keeps hkeeps), hr.sameOff.at? _ hbeside, habsent]

end

/-! ## Interruptions

An interrupted run has gone through some of its worlds, and the last of these is what is left. -/

section
variable {w w' : World} {output : Path} {name : String} {files : List OutputFile}

/-- **A staged build that is interrupted** leaves what was there, the new build, or nothing; what
was there is then in the staging directory, complete.  Nothing else changes beside the output. -/
theorem standing_of_interrupted (hw : w.IsSound) (hends : output.EndsIn name)
    (hname : ¬ IsStagingName name) (hinside : ∀ f ∈ files, f.path.IsInside)
    (hparent : (∃ D, w.IsIn output D) ∨ ".." ∉ output.way)
    (hmem : w' ∈ (write .staged output files).run.worlds w) :
    (w'.standing output = w.standing output ∨ w'.HasBuild output files ∨
      ∃ D s node, w.IsIn output D ∧ IsStagingName s ∧ w.standing output = some node ∧
        w'.standing output = none ∧ w'.files.at? (D ++ [s] ++ ["previous"]) = some node) ∧
      IsApart w.workDir output name w.files w'.files := by
  have hstart := hw.isDir_start output
  have hensures : Ensures (fun _ => False) w.workDir (Moment files w.workDir output name w.files)
      (writeStaged output files).run 0 w.files _ :=
    ensures_writeStaged hw.names hends hinside hstart (.inl zero_le_one)
  obtain ⟨hon, hmoment⟩ := hensures.worlds hw.isOn hmem
  have hdir : w'.workDir = w.workDir := hon.workDir
  rw [World.HasBuild, World.standing, World.standing, hdir]
  rcases hmoment with hbegun | ⟨D, s, staging, r₁, hbegun, hground, hunderway⟩
  · exact ⟨.inl (hbegun.standing_eq hends hparent hstart), hbegun.isApart hparent⟩
  · have hstaging := hground.staging.isStagingName
    have hs : s ≠ name := fun hs => hname (hs ▸ hstaging)
    have hset : Setting w.workDir output staging name s D r₁ := ⟨hground, hs⟩
    refine ⟨?_, hbegun.isApart_of_underway hparent hset (hunderway hs)⟩
    refine (hbegun.standing_cases hparent hstart hset (hunderway hs)).imp_right fun h => ?_
    rcases h with hbuild | ⟨node, hown, hold, hnone, hparked⟩
    · exact .inl hbuild
    · exact .inr ⟨D, s, node, hown, hstaging, hold, hnone, hparked⟩

end

/-! ### A build in place of an earlier one

A world with a build of one file, in which every run of a staged build can be followed. -/

/-- A world with a build of one file at `out`. -/
def earlier : World :=
  { World.new (.dir [("out", .dir [("old.js", .file "old".toUTF8)])]) [] with randomNames := ["a"] }

/-- The files of a build of one file. -/
def oneFile : List OutputFile := [⟨"index.js", "new"⟩]

lemma isSound_earlier : earlier.IsSound where
  workDir := ⟨_, rfl⟩
  names := by simp [earlier, World.new]
  randomNames := by decide

lemma endsIn_out : Path.EndsIn "out" "out" := ⟨by decide, by constructor <;> decide⟩

lemma isClear_earlier : IsClear earlier.workDir "out" "out" earlier.files := by
  have hroute : (stagingParent "out").route [] = [] := by decide +kernel
  have hway : Path.way "out" = ["out"] := by decide +kernel
  refine .inl ⟨[], ?_, ?_⟩
  · rw [hway]
    exact ⟨⟨_, rfl⟩, rfl⟩
  · rw [IsSteady, show earlier.workDir = [] from rfl, hroute]
    exact ⟨⟨_, rfl⟩, rfl⟩

/-- The name of a staging directory begins with a dot. -/
lemma head?_of_isStagingName {name : String} (h : IsStagingName name) :
    name.toList.head? = some '.' := by
  obtain ⟨text, rfl⟩ := h
  rw [String.toList_append]
  rfl

lemma not_isStagingName_out : ¬ IsStagingName "out" :=
  fun h => absurd (head?_of_isStagingName h) (by decide)

lemma isInside_oneFile : ∀ f ∈ oneFile, f.path.IsInside := by
  intro f hf
  rw [List.mem_singleton.mp hf]
  constructor <;> decide

/-- There is a moment at which nothing stands at the output. -/
lemma exists_standing_none : ∃ w' ∈ (write .staged "out" oneFile).run.worlds earlier,
    w'.standing "out" = none := by
  have hany : ((write .staged "out" oneFile).run.worlds earlier).any
      (fun w' => (w'.standing "out").isNone) = true := by decide +kernel
  obtain ⟨w', hmem, hnone⟩ := List.any_eq_true.mp hany
  exact ⟨w', hmem, Option.isNone_iff_eq_none.mp hnone⟩

lemma standing_earlier : earlier.standing "out" = some (.dir [("old.js", .file "old".toUTF8)]) := by
  have hplace : earlier.files.place earlier.workDir "out" = .ok ⟨[], .name "out", false⟩ := by
    decide +kernel
  rw [World.standing, standing_of_place hplace]
  rfl

/-- Between the two renames the earlier build is in the staging directory only. -/
theorem standing_of_interrupted_between :
    ∃ w' ∈ (write .staged "out" oneFile).run.worlds earlier, w'.standing "out" = none ∧
      (∃ D s, IsStagingName s ∧ w'.files.at? (D ++ [s] ++ ["previous"]) = earlier.standing "out") ∧
      IsApart earlier.workDir "out" "out" earlier.files w'.files := by
  obtain ⟨w', hmem, hnone⟩ := exists_standing_none
  obtain ⟨hcases, hapart⟩ := standing_of_interrupted isSound_earlier endsIn_out
    not_isStagingName_out isInside_oneFile (.inr (by decide)) hmem
  refine ⟨w', hmem, hnone, ?_, hapart⟩
  rcases hcases with hsame | ⟨t, ht, -⟩ | ⟨D, s, node, -, hs, hold, -, hparked⟩
  · rw [standing_earlier, hnone] at hsame
    exact absurd hsame (by simp)
  · exact absurd (hnone.symm.trans ht) (by simp)
  · exact ⟨D, s, hs, hparked.trans hold.symm⟩

/-- So the output does not always hold what it held before or the new build.  Nor is all else beside
it what it was: a name that is missing before a `..` is made a directory. -/
theorem not_standing_or_built :
    (¬ ∀ w' ∈ (write .staged "out" oneFile).run.worlds earlier,
      w'.standing "out" = earlier.standing "out" ∨ w'.HasBuild "out" oneFile) ∧
    ¬ ∀ w' ∈ (write .staged "x/../out" oneFile).run.worlds earlier, ∀ m, m ≠ "out" →
      ¬ IsStagingName m → w'.files.label? [m] = earlier.files.label? [m] := by
  refine ⟨fun h => ?_, fun h => ?_⟩
  · obtain ⟨w', hmem, hnone⟩ := exists_standing_none
    rcases h w' hmem with hsame | ⟨t, ht, -⟩
    · rw [standing_earlier, hnone] at hsame
      exact absurd hsame (by simp)
    · exact absurd (hnone.symm.trans ht) (by simp)
  · have hany : ((write .staged "x/../out" oneFile).run.worlds earlier).any
        (fun w' => (w'.files.label? ["x"]).isSome) = true := by decide +kernel
    obtain ⟨w', hmem, hsome⟩ := List.any_eq_true.mp hany
    have hold : (earlier.files.label? ["x"]).isSome = false := by decide +kernel
    rw [h w' hmem "x" (by decide) fun hs => absurd (head?_of_isStagingName hs) (by decide),
      hold] at hsome
    exact absurd hsome (by decide)

/-! ## Refusals

Requests are refused by their numbers, so that a run is told which of its own requests fail.  The
rename that would put back the earlier build is known by its paths (`PutsBack`). -/

/-- Whether a request is to put back what has stood at an output. -/
def PutsBack (output : Path) : Request → Prop
  | .rename source target => source.names.getLast? = some "previous" ∧ target = output
  | _ => False

instance (output : Path) : DecidablePred (PutsBack output) := fun q => by
  cases q <;> unfold PutsBack <;> infer_instance

lemma putsBack_rename (staging output : Path) :
    PutsBack output (.rename (staging.join "previous") output) := by
  refine ⟨?_, rfl⟩
  rw [Path.names_join isName_previous.isAbsolute, isName_previous.names, List.getLast?_concat]

/-- Whether what has stood at an output is replaced by the build of some files, or is kept whole, at
the output or in the staging directory. -/
def IsReplacedOrKept (files : List OutputFile) (output : Path) (w w' : World) : Prop :=
  w'.HasBuild output files ∨ w'.standing output = w.standing output ∨
    ∃ D s, w.IsIn output D ∧ IsStagingName s ∧
      w'.files.at? (D ++ [s] ++ ["previous"]) = w.standing output

section
variable {w : World} {output : Path} {name : String} {files : List OutputFile} {node : FileTree}
  {refuses : ℕ → Option IoFault}

/-- **What stood at the output of a staged build is replaced or kept**, whatever is refused: at the
output or in the staging directory.  Only to put it back may not be refused. -/
theorem replaced_or_kept (hw : w.IsSound) (hends : output.EndsIn name)
    (hinside : ∀ f ∈ files, f.path.IsInside) (hold : w.standing output = some node)
    (hback : ∀ q ∈ refused refuses 0 (write .staged output files).run w, ¬ PutsBack output q) :
    IsReplacedOrKept files output w
      ((write .staged output files).run.runRefusing refuses 0 w).2 := by
  rw [IsReplacedOrKept, hold]
  have hwrite : write .staged output files = writeStaged output files := rfl
  rw [hwrite] at hback ⊢
  have hstart := hw.isDir_start output
  have hparent : ∃ D, w.IsIn output D := by
    rcases FileTree.standing_cases hends hstart with ⟨-, d, hd, -⟩ | hnone
    · exact ⟨d, hd⟩
    · exact absurd (hnone.symm.trans hold) (by simp)
  have hensures : Ensures (fun q => ¬ PutsBack output q) w.workDir
      (Moment files w.workDir output name w.files) (writeStaged output files).run ⊤ w.files _ :=
    ensures_writeStaged hw.names hends hinside hstart
      (.inr fun staging h => h (putsBack_rename staging output))
  obtain ⟨hon, -, m, hpost⟩ := hensures.runRefusing hw.isOn hback le_top
  rw [World.HasBuild, World.standing, hon.workDir]
  rcases hpost with ⟨-, hbegun⟩ | ⟨staging, result, D, s, r₁, hstaged, -⟩
  · exact .inr (.inl ((hbegun.standing_eq hends (.inl hparent) hstart).trans hold))
  · have hsame := hstaged.begun.same hparent
    have hs : s ≠ name := by
      rintro rfl
      have habsent := hstaged.ground.staging.absent
      have hown : r₁.Reaches _ _ D := hstaged.ground.own
      rw [hsame] at habsent hown
      rcases FileTree.standing_cases hends hstart with ⟨-, d, hd, hstanding⟩ | hnone
      · rw [hd.unique hown, habsent] at hstanding
        exact absurd (hstanding.symm.trans hold) (by simp)
      · exact absurd (hnone.symm.trans hold) (by simp)
    have hset : Setting w.workDir output staging name s D r₁ := ⟨hstaged.ground, hs⟩
    rcases hstaged.begun.standing_cases (.inl hparent) hstart hset (hstaged.underway hs) with
      heq | hbuild | ⟨node', hown, hold', -, hparked⟩
    · exact .inr (.inl (heq.trans hold))
    · exact .inl hbuild
    · obtain rfl : node' = node := Option.some.inj (hold'.symm.trans hold)
      exact .inr (.inr ⟨D, s, hown, hstaged.ground.staging.isStagingName, hparked⟩)

/-- **Where at most one request is refused** a staged build stands at its output if it succeeds; if
it fails, what stood there still does, unless all but the removal of the staging directory has
succeeded. -/
theorem standing_of_refused_one (hw : w.IsSound) (hends : output.EndsIn name)
    (hname : ¬ IsStagingName name) (hinside : ∀ f ∈ files, f.path.IsInside)
    (hclear : IsClear w.workDir output name w.files)
    (hone : (refused refuses 0 (write .staged output files).run w).length ≤ 1) :
    (((write .staged output files).run.runRefusing refuses 0 w).1 = .ok () →
      ((write .staged output files).run.runRefusing refuses 0 w).2.HasBuild output files) ∧
    (((write .staged output files).run.runRefusing refuses 0 w).1 ≠ .ok () →
      ((write .staged output files).run.runRefusing refuses 0 w).2.standing output
          = w.standing output ∨
        ((write .staged output files).run.runRefusing refuses 0 w).2.HasBuild output files ∧
          ∃ staging, ((staged output files).run.runRefusing refuses 0 w).1
            = .ok (staging, .ok ())) := by
  have hstart := hw.isDir_start output
  have hwrite : (write .staged output files).run
      = (staged output files).run >>= ExceptT.bindCont (cleanup output) := by
    -- with the scripts themselves in place of variables the unifier would run them
    have hrun : ∀ {α : Type} (x : ExceptT WriteError Script α)
        (f : α → ExceptT WriteError Script Unit),
        (x >>= f).run = x.run >>= ExceptT.bindCont f := fun _ _ => rfl
    rw [write, writeStaged_eq, hrun]
  rw [hwrite] at hone ⊢
  obtain ⟨after, hafter⟩ := runRefusing_bind refuses (staged output files).run 0 w
    (β := Except WriteError Unit)
  obtain ⟨hrun, hrefused⟩ := hafter (ExceptT.bindCont (cleanup output))
  rw [hrefused, List.length_append] at hone
  rw [hrun]
  have hstaged : Ensures (fun _ => True) w.workDir (Moment files w.workDir output name w.files)
      (staged output files).run 1 w.files _ :=
    ensures_staged hw.names hends hinside hstart (.inl le_rfl)
  have hmay : ∀ q ∈ refused refuses 0 (staged output files).run w, True := fun _ _ => trivial
  obtain ⟨hon, -, m, hpost⟩ := hstaged.runRefusing hw.isOn hmay
    (by exact_mod_cast le_of_add_le_left hone)
  generalize (staged output files).run.runRefusing refuses 0 w = mid at hon hpost ⊢
  obtain ⟨result, w₁⟩ := mid
  rcases result with (e | ⟨staging, result⟩)
  · -- nothing has been staged
    have hcont : ExceptT.bindCont (cleanup output) (.error e) = .done (.error e) := rfl
    dsimp only
    rw [hcont, Script.runRefusing]
    refine ⟨fun hok => absurd hok (by simp), fun _ => .inl ?_⟩
    rw [World.standing, World.standing, hon.workDir]
    exact hpost.standing_eq hends hclear.reached_or_down hstart
  · obtain ⟨D, s, r₁, hat⟩ := hpost
    have hs : s ≠ name := fun hs => hname (hs ▸ hat.ground.staging.isStagingName)
    have hcont : ExceptT.bindCont (cleanup output) (.ok (staging, result))
        = (cleanup output (staging, result)).run := rfl
    have hcleanup : Ensures (fun _ => True) w.workDir _ (cleanup output (staging, result)).run ⊤
        w₁.files _ := ensures_cleanup hat
    have hmay' : ∀ q ∈ refused refuses after (cleanup output (staging, result)).run w₁, True :=
      fun _ _ => trivial
    obtain ⟨hon', hat', m', hfinal⟩ := hcleanup.runRefusing hon hmay' le_top
    dsimp only
    rw [hcont]
    generalize (cleanup output (staging, result)).run.runRefusing refuses after w₁ = final
      at hon' hat' hfinal ⊢
    obtain ⟨hbuilt, hkept⟩ := hat'.standing hends hclear hstart hs
    rw [World.HasBuild, World.standing, World.standing, hon'.workDir]
    refine ⟨fun hok => hbuilt (hfinal hok).1, fun _ => ?_⟩
    rcases result with (e | u)
    · exact .inl (hkept (by simp))
    · exact .inr ⟨hbuilt rfl, staging, rfl⟩

end

/-! ### Builds that lose what stood at the output

Two ways to lose it: the earlier build is refused its place after the new one has been, or a file of
the new build is written into the earlier one, by a path that leads out of the staging directory. -/

/-- Refuses the requests with the given numbers. -/
def refuseAt (numbers : List ℕ) (i : ℕ) : Option IoFault :=
  if i ∈ numbers then some .resourceBusy else none

/-- The earlier build is put back if the new one is refused its place. -/
theorem replaced_or_kept_refused : IsReplacedOrKept oneFile "out" earlier
    ((write .staged "out" oneFile).run.runRefusing (refuseAt [15]) 0 earlier).2 :=
  replaced_or_kept isSound_earlier endsIn_out isInside_oneFile standing_earlier (by decide +kernel)

/-- The earlier build is lost with the staging directory if neither the new one nor the earlier one
is allowed to take the place at the output. -/
lemma not_isReplacedOrKept_refused : ¬ IsReplacedOrKept oneFile "out" earlier
    ((write .staged "out" oneFile).run.runRefusing (refuseAt [15, 16]) 0 earlier).2 := by
  intro hall
  set w' := ((write .staged "out" oneFile).run.runRefusing (refuseAt [15, 16]) 0 earlier).2
  have hentries : w'.entries [] = .ok [] := by decide +kernel
  have hnone : (w'.standing "out").isNone = true := by decide +kernel
  rw [Option.isNone_iff_eq_none] at hnone
  rw [IsReplacedOrKept, standing_earlier] at hall
  rcases hall with ⟨t, ht, -⟩ | hkept | ⟨D, s, -, -, hparked⟩
  · exact absurd (hnone.symm.trans ht) (by simp)
  · exact absurd (hnone.symm.trans hkept) (by simp)
  · rw [World.entries, at?_nil] at hentries
    have hempty : w'.files = .dir [] := by
      cases hfiles : w'.files with
      | file content | link target =>
          rw [hfiles] at hentries
          cases hentries
      | dir entries =>
          rw [hfiles] at hentries
          obtain rfl : entries = [] := by simpa using Except.ok.inj hentries
          rfl
    rw [hempty] at hparked
    have hleaf := isLeaf_dir_nil (D ++ [s] ++ ["previous"]) (by simp)
    exact absurd (hleaf.symm.trans hparked) (by simp)

/-- Files of a build that cannot be written.  The first is not inside of the output directory. -/
def outsideFiles : List OutputFile := [⟨"../../out/old.js", "new"⟩, ⟨"handlers", "new"⟩]

/-- The last name of a node that is not the root is that of an entry. -/
lemma exists_entries_of_at? {w : World} {d : Location} {name : String} {node : FileTree}
    (h : w.files.at? (d ++ [name]) = some node) :
    ∃ entries, w.entries d = .ok entries ∧ (name, node.kind) ∈ entries := by
  rw [at?_concat] at h
  obtain ⟨parent, hparent, hchild⟩ := Option.bind_eq_some_iff.mp h
  cases parent with
  | file content | link target => cases hchild
  | dir entries =>
      obtain ⟨before, after, hsplit, -⟩ := List.lookup_eq_some_iff.mp hchild
      refine ⟨_, by rw [World.entries, hparent], ?_⟩
      rw [hsplit]
      simp

/-- Where there is one directory with one file in it, there are no other directories. -/
lemma eq_of_entries_oneFile {w : World} {out file : String} {es : List (String × FileKind)}
    (hroot : w.entries [] = .ok [(out, .dir)]) (hout : w.entries [out] = .ok [(file, .file)]) :
    ∀ l, w.entries l = .ok es → l = [] ∨ l = [out] := by
  intro l
  induction l using List.reverseRecOn generalizing es with
  | nil => exact fun _ => .inl rfl
  | append_singleton l m ih =>
      intro h
      obtain ⟨inner, hinner⟩ : ∃ inner, w.files.at? (l ++ [m]) = some (.dir inner) := by
        rw [World.entries] at h
        split at h
        · exact ⟨_, ‹_›⟩
        · cases h
        · cases h
      obtain ⟨entries, hentries, hmem⟩ := exists_entries_of_at? hinner
      rcases ih hentries with rfl | rfl
      · obtain rfl := Except.ok.inj (hroot.symm.trans hentries)
        obtain ⟨rfl, -⟩ : m = out ∧ _ := by simpa using hmem
        exact .inr rfl
      · obtain rfl := Except.ok.inj (hout.symm.trans hentries)
        simp [FileTree.kind] at hmem

/-- The earlier build is not kept whole if a file of the new one is put into it. -/
lemma not_isReplacedOrKept_outside : ¬ IsReplacedOrKept outsideFiles "out" earlier
    ((write .staged "out" outsideFiles).run.run earlier).2 := by
  intro hall
  set w' := ((write .staged "out" outsideFiles).run.run earlier).2
  have hnone : ((w'.standing "out").bind (·.label? ["handlers"])).isSome = false := by
    decide +kernel
  have hnew : (w'.standing "out").bind (·.label? ["old.js"]) = some (.file "new".toUTF8) := by
    decide +kernel
  have hroot : w'.entries [] = .ok [("out", .dir)] := by decide +kernel
  have hout : w'.entries ["out"] = .ok [("old.js", .file)] := by decide +kernel
  clear_value w'
  rcases hall with ⟨t, ht, hbuild⟩ | hkept | ⟨D, s, -, -, hparked⟩
  · have hsome : (expected outsideFiles ["handlers"]).isSome = true := by decide +kernel
    rw [ht, Option.bind_some, hbuild, hsome] at hnone
    exact absurd hnone (by decide)
  · have hold : (earlier.standing "out").bind (·.label? ["old.js"])
        = some (.file "old".toUTF8) := by
      decide +kernel
    rw [hkept, hold] at hnew
    exact absurd hnew (by decide +kernel)
  · rw [standing_earlier] at hparked
    obtain ⟨entries, hentries, hmem⟩ := exists_entries_of_at? hparked
    rcases eq_of_entries_oneFile hroot hout _ hentries with hnil | hsingle
    · simp at hnil
    · rw [hsingle] at hentries
      obtain rfl := Except.ok.inj (hout.symm.trans hentries)
      simp at hmem

/-- **The earlier build may be lost** if the new one is refused its place and the earlier one is
refused its own.  Even where nothing is refused, it is not kept whole if a file of the new one is
put outside of its output directory. -/
theorem not_replaced_or_kept :
    (¬ ∀ refuses : ℕ → Option IoFault, IsReplacedOrKept oneFile "out" earlier
      ((write .staged "out" oneFile).run.runRefusing refuses 0 earlier).2) ∧
    ¬ ∀ files : List OutputFile, IsReplacedOrKept files "out" earlier
      ((write .staged "out" files).run.run earlier).2 :=
  ⟨fun h => not_isReplacedOrKept_refused (h _), fun h => not_isReplacedOrKept_outside (h _)⟩

end Build

end WorkerGen
