import Mathlib
import WorkerGen.Proofs.Build.InPlace

/-!
# Both ways to replace an output directory

A staged build that succeeds replaces what stood at the output as a build in place does
(`ensures_write`), so the two leave the same tree, and a second build of the same files changes
nothing (`write_replaces`).  For a staged build this is what `StagedAt` comes to once its staging
directory is gone (`StagedAt.rebuilt`); for one in place it is known already.

This does not hold if the way to the output goes back from a name that is missing: nothing is found
to be removed then, but the output is there once that name has been made a directory
(`not_rebuilt_missingName`).  The condition is `IsClear`: the way to the directory of the output
stays as it is when the output is replaced.  A build that has succeeded leaves it so
(`Rebuilt.isClear`), which is why nothing has to be assumed of the second build.
-/

namespace WorkerGen

namespace Build

open FileTree Script

section
variable {may : Request → Prop} {base D : Location} {output staging : Path} {name s : String}
  {r₀ r₁ r : FileTree} {files : List OutputFile}

/-! ## Trees

Both strategies have been followed to the end by now, and are brought to one form here. -/

/-- The way to the directory of an output that has been made does not lead through the output. -/
lemma Begun.reaches_erase (hends : output.EndsIn name)
    (hbase : ∀ name ∈ base, Path.IsName name ∧ isLong name = false)
    (hclear : IsClear base output name r₀) (h : Begun base output r₀ r₁)
    (hD : r₁.Reaches (startOf base output) output.way.dropLast D) :
    (r₁.erase D name).Reaches (startOf base output) output.way.dropLast D := by
  rcases hclear with ⟨D', hD', hsteady⟩ | ⟨hno, hdown⟩
  · obtain rfl := h.same ⟨D', hD'⟩
    rw [hD.unique hD']
    exact reaches_of_route_of_lost hends.way_ne_nil hbase hD.isDir_start (Lost.erase r₁ D' name)
      hsteady
  · have hgrown : Grown (startOf base output) (output.way.dropLast ++ []) r₀ r₁ := by
      rw [List.append_nil]
      exact h.grows hno hdown
    exact hgrown.reaches_erase (isStep_of_mem_dropLast hdown) (fun x hx => hno ⟨x, hx⟩) hD name

/-- A staged build whose staging directory is gone has replaced what stood at the output. -/
lemma StagedAt.rebuilt (hends : output.EndsIn name)
    (hbase : ∀ name ∈ base, Path.IsName name ∧ isLong name = false)
    (hclear : IsClear base output name r₀)
    (h : StagedAt files base output name r₀ staging (.ok ()) D s r₁ r)
    (hgone : s ≠ name → r.standing base staging = none) :
    Rebuilt files base output name D r₀ r₁ r := by
  have hs : s ≠ name := fun hs => h.self hs rfl
  have hset : Setting base output staging name s D r₁ := ⟨h.ground, hs⟩
  have hoff := (h.underway hs).sameOff
  have hreplaced : Replaced files base output D name r₁ r := h.swapped hs
  obtain ⟨entries, hat, hbuild⟩ := hreplaced.build
  have hreach := (hset.reaches_of_cases hoff (.inr hreplaced)).1
  have hstart : startOf base staging = [] := by
    rw [startOf, h.ground.staging.absolute, if_pos rfl]
  have habsent : r.at? (D ++ [s]) = none := by
    rw [← hgone hs, standing_of_reaches h.ground.staging.isLegal]
    rwa [hstart, h.ground.staging.way, List.dropLast_concat]
  refine ⟨hreplaced.legal, h.ground.own, h.begun.reaches_erase hends hbase hclear h.ground.own,
    h.begun.same, fun hno => ?_, fun l hl => ?_, fun l => ?_⟩
  · have hdown := hclear.reached_or_down.resolve_left hno
    refine ⟨hdown, [], List.nil_prefix, ?_⟩
    rw [List.append_nil]
    exact h.begun.grows hno hdown
  · by_cases hls : D ++ [s] <+: l
    · obtain ⟨rest, rfl⟩ := hls
      rw [label?_append, label?_append, habsent, h.ground.staging.absent]
    · exact hoff.label? l (by simpa using ⟨hl, hls⟩)
  · rw [label?_append, hat, Option.bind_some, hbuild]

/-- **A build that succeeds** replaces what stood at the output, whatever the strategy. -/
theorem ensures_write {strategy : WriteStrategy} (hends : output.EndsIn name)
    (hbase : ∀ name ∈ base, Path.IsName name ∧ isLong name = false)
    (hstart : r₀.IsDir (startOf base output)) (hclear : IsClear base output name r₀)
    (hinside : ∀ f ∈ files, f.path.IsInside)
    (hlink : output.endsWithSlash = true → ∀ D,
      r₀.Reaches (startOf base output) output.way.dropLast D →
        ∀ target, r₀.at? (D ++ [name]) ≠ some (.link target)) :
    Ensures may base (fun _ => True) (write strategy output files).run 0 r₀
      fun result _ r => result = .ok () → ∃ D r₁, Rebuilt files base output name D r₀ r₁ r := by
  cases strategy with
  | inPlace => exact ensures_writeInPlace hends hbase hstart hclear hinside hlink
  | staged =>
      refine (ensures_writeStaged hbase hends hinside hstart (.inl zero_le_one)).mono
        (fun _ _ => trivial) fun result m r _ _ h hresult => ?_
      rcases h with ⟨hne, -⟩ | ⟨staging, result, D, s, r₁, hstaged, hfinal⟩
      · exact absurd hresult hne
      · obtain ⟨rfl, hgone⟩ := hfinal hresult
        exact ⟨D, r₁, hstaged.rebuilt hends hbase hclear (hgone rfl)⟩

/-- What has been replaced can be replaced again. -/
lemma Rebuilt.isClear (hends : output.EndsIn name)
    (hbase : ∀ name ∈ base, Path.IsName name ∧ isLong name = false)
    (h : Rebuilt files base output name D r₀ r₁ r) : IsClear base output name r := by
  refine .inl ⟨D, h.reaches, ?_⟩
  refine (route_of_reaches hends.way_ne_nil hbase h.clear).of_erase fun l hl => ?_
  rw [(SameOff.erase r D name).label? l (by simpa using hl), h.off l hl]

lemma Rebuilt.ne_link (h : Rebuilt files base output name D r₀ r₁ r) (D' : Location)
    (hD' : r.Reaches (startOf base output) output.way.dropLast D') (target : Path) :
    r.at? (D' ++ [name]) ≠ some (.link target) := by
  rw [hD'.unique h.reaches]
  intro hlink
  have hlabel := h.build []
  rw [List.append_nil, label?_eq_link_iff.mpr hlink] at hlabel
  exact expected_ne_link target hlabel.symm

end

/-! ## Worlds

`Replaces` says of worlds what `Rebuilt` says of trees: the build stands at the output, with the
directories that it is in, and all else is what it was. -/

/-- Whether a world comes from another by replacing what stands at an output by the build of some
files.  The directories that the output is in are there then; all else is what it was. -/
structure Replaces (w : World) (output : Path) (name : String) (files : List OutputFile)
    (w' : World) : Prop where
  build : w'.HasBuild output files
  off : ∃ D, w'.IsIn output D ∧ ∀ l, ¬ D ++ [name] <+: l →
    w'.files.label? l = if l <+: D then some .dir else w.files.label? l

section
variable {w w' w'' : World} {output : Path} {name : String} {files : List OutputFile}

/-- **A build that succeeds replaces what stood at the output and nothing else**, whatever that was.
Both strategies leave the same tree, and a second build changes nothing. -/
theorem write_replaces (hw : w.IsSound) (hends : output.EndsIn name)
    (hclear : IsClear w.workDir output name w.files) (hinside : ∀ f ∈ files, f.path.IsInside)
    (hlink : output.endsWithSlash = true → ∀ D, w.IsIn output D →
      ∀ target, w.files.at? (D ++ [name]) ≠ some (.link target)) :
    (∀ strategy w', (write strategy output files).run.run w = (.ok (), w') →
      Replaces w output name files w') ∧
    (∀ strategy strategy' w' w'', (write strategy output files).run.run w = (.ok (), w') →
      (write strategy' output files).run.run w = (.ok (), w'') →
        ∀ l, w'.files.label? l = w''.files.label? l) ∧
    ∀ strategy strategy' w' w'', (write strategy output files).run.run w = (.ok (), w') →
      (write strategy' output files).run.run w' = (.ok (), w'') →
        ∀ l, w''.files.label? l = w'.files.label? l := by
  have hrun : ∀ strategy w', (write strategy output files).run.run w = (.ok (), w') →
      w'.IsOn w.workDir w'.files ∧
        ∃ D r₁, Rebuilt files w.workDir output name D w.files r₁ w'.files := by
    intro strategy w' h
    have hensures : Ensures (fun _ => False) w.workDir (fun _ => True)
        (write strategy output files).run 0 w.files _ :=
      ensures_write hends hw.names (hw.isDir_start output) hclear hinside hlink
    obtain ⟨hon, -, hpost⟩ := hensures.run hw.isOn
    rw [h] at hon hpost
    exact ⟨hon, hpost rfl⟩
  refine ⟨fun strategy w' h => ?_, fun strategy strategy' w' w'' h h' => ?_,
    fun strategy strategy' w' w'' h h' => ?_⟩
  · obtain ⟨hon, D, r₁, hrebuilt⟩ := hrun strategy w' h
    refine ⟨?_, D, ?_, hrebuilt.label?_eq⟩
    · rw [World.HasBuild, World.standing, hon.workDir]
      exact hrebuilt.standing hinside
    · rw [World.IsIn, hon.workDir]
      exact hrebuilt.reaches
  · obtain ⟨-, D, r₁, hrebuilt⟩ := hrun strategy w' h
    obtain ⟨-, D', r₁', hrebuilt'⟩ := hrun strategy' w'' h'
    exact hrebuilt.label?_unique hrebuilt'
  · obtain ⟨hon, D, r₁, hrebuilt⟩ := hrun strategy w' h
    have hensures : Ensures (fun _ => False) w.workDir (fun _ => True)
        (write strategy' output files).run 0 w'.files _ :=
      ensures_write hends hw.names hrebuilt.reaches.isDir_start (hrebuilt.isClear hends hw.names)
        hinside fun _ => hrebuilt.ne_link
    obtain ⟨-, -, hpost⟩ := hensures.run hon
    rw [h'] at hpost
    obtain ⟨D', r₁', hrebuilt'⟩ := hpost rfl
    exact hrebuilt.label?_again hrebuilt'

end

/-- Both strategies replace the earlier build. -/
theorem write_replaces_earlier : ∃ w' w'',
    (write .staged "out" oneFile).run.run earlier = (.ok (), w') ∧
    (write .inPlace "out" oneFile).run.run earlier = (.ok (), w'') ∧
      Replaces earlier "out" "out" oneFile w' ∧ ∀ l, w'.files.label? l = w''.files.label? l := by
  have hstaged : ((write .staged "out" oneFile).run.run earlier).1 = .ok () := by decide +kernel
  have hinPlace : ((write .inPlace "out" oneFile).run.run earlier).1 = .ok () := by decide +kernel
  rw [Prod.fst_eq_iff] at hstaged hinPlace
  obtain ⟨hreplaces, hsame, -⟩ := write_replaces isSound_earlier endsIn_out isClear_earlier
    isInside_oneFile fun hslash => absurd hslash (by decide +kernel)
  exact ⟨_, _, hstaged, hinPlace, hreplaces _ _ hstaged, hsame _ _ _ _ hstaged hinPlace⟩

/-- **A build in place may keep what stood at the output**, if a name that is missing stands before
a `..` on the way to it. -/
theorem not_rebuilt_missingName : ¬ ∀ w',
    (write .inPlace "x/../out" oneFile).run.run earlier = (.ok (), w') →
      w'.HasBuild "x/../out" oneFile := by
  intro h
  have hok : ((write .inPlace "x/../out" oneFile).run.run earlier).1 = .ok () := by decide +kernel
  obtain ⟨t, ht, hbuild⟩ := h _ (Prod.fst_eq_iff.mp hok)
  have hkept : ((((write .inPlace "x/../out" oneFile).run.run earlier).2.standing
      "x/../out").bind (·.label? ["old.js"])).isSome = true := by decide +kernel
  have hnew : (expected oneFile ["old.js"]).isSome = false := by decide +kernel
  rw [ht, Option.bind_some, hbuild, hnew] at hkept
  exact absurd hkept (by decide)

end Build

end WorkerGen
