import Mathlib
import WorkerGen.Proofs.Build.Staged

/-!
# What replacing an output directory ensures

A staged build makes the directory that the output is in, then a staging directory there, stages the
build (`ensures_stage`), and removes the staging directory.  `ensures_writeStaged` says what holds
of the whole.

The staging directory is removed whatever has come of the staging, and even then what it holds may
still be needed: between the two renames it has what stood at the output.  The proof takes the build
apart there.  `staged` is what comes before the removal and `cleanup` the removal, and together they
are the build (`writeStaged_eq`).  `StagedAt` is what the first part ensures, with its result, and
the second part keeps it, since it only loses what is below the staging directory.

* `Begun` — before there is a staging directory, only directories on the way to the output have been
  made, and none if the directory of the output was there.
* `Moment` — what holds at every moment: the build has begun, or it is under way.
* `ensures_staged` and `ensures_cleanup` — the two parts.
* `ensures_writeStaged_build` — a staged build that succeeds stands at its output, whatever has been
  refused.
-/

namespace WorkerGen

namespace Build

open FileTree Script

/-! ## The directory that an output is in

The tree grows along the way to that directory if it was missing, and a directory that has just been
made is empty, so that nothing stands at the output. -/

/-- What holds before the staging directory is made: if the directory that the output is in was
missing, directories have been added on the way to it. -/
structure Begun (base : Location) (output : Path) (r₀ r : FileTree) : Prop where
  isDir : r.IsDir (startOf base output)
  same : (∃ D, r₀.Reaches (startOf base output) output.way.dropLast D) → r = r₀
  grows : (¬ ∃ D, r₀.Reaches (startOf base output) output.way.dropLast D) → ".." ∉ output.way →
    Grown (startOf base output) output.way.dropLast r₀ r

/-- The names of a path that does not go back lead down. -/
lemma isStep_of_mem_dropLast {output : Path} (hdots : ".." ∉ output.way) :
    ∀ name ∈ output.way.dropLast, IsStep name := by
  intro name hname
  have hmem := List.dropLast_subset _ hname
  exact ⟨(Path.mem_way hmem).2.1, fun h => hdots (h ▸ hmem)⟩

namespace Begun

variable {base d : Location} {output : Path} {m : String} {r₀ r : FileTree}

lemma refl (h : r.IsDir (startOf base output)) : Begun base output r r :=
  ⟨h, fun _ => rfl, fun _ _ => .inl rfl⟩

/-- A directory that has been made for the output is empty. -/
lemma new (h : Begun base output r₀ r)
    (hno : ¬ ∃ D, r₀.Reaches (startOf base output) output.way.dropLast D)
    (hdots : ".." ∉ output.way) (hd : r.Reaches (startOf base output) output.way.dropLast d) :
    r.at? d = some (.dir []) := by
  have hgrown : Grown (startOf base output) (output.way.dropLast ++ []) r₀ r := by
    rw [List.append_nil]
    exact h.grows hno hdots
  have hsteps := isStep_of_mem_dropLast hdots
  have hno' := fun x hx => hno ⟨x, hx⟩
  refine at?_eq_dir_nil hd.isDir fun name => ?_
  rw [← label?_eq_none_iff]
  rcases hgrown.label?_cases hsteps hno' hd (d ++ [name]) with hsame | ⟨-, -, hprefix⟩
  · rw [hsame, label?_eq_none_iff]
    exact hgrown.at?_eq_none hsteps hno' hd [name]
  · exact absurd hprefix.length_le (by simp)

/-- A directory may be made on the way. -/
lemma put {way : List String} (h : Begun base output r₀ r)
    (hway : way ++ [m] <+: output.way.dropLast)
    (hm : IsStep m) (hlong : isLong m = false) (hd : r.Reaches (startOf base output) way d)
    (habsent : r.at? (d ++ [m]) = none) : Begun base output r₀ (r.put d m (.dir [])) := by
  have hkeeps : Keeps r (r.put d m (.dir [])) := .put (by simp [habsent])
  refine ⟨(hd.keeps hkeeps).isDir_start, ?_, fun hno hdots => ?_⟩
  · rintro ⟨D, hD⟩
    obtain ⟨more, hmore⟩ := hway
    rw [← h.same ⟨D, hD⟩, ← hmore, List.append_assoc, List.singleton_append] at hD
    exact absurd hD (hd.not_of_absent hm habsent)
  · exact (h.grows hno hdots).put (isStep_of_mem_dropLast hdots) hway hlong hd habsent

end Begun

section
variable {may : Request → Prop} {base D : Location} {output staging : Path} {name s : String}
  {r₀ r₁ r : FileTree} {n : ℕ∞} {files : List OutputFile}

lemma ensures_makeDirs_stagingParent (hends : output.EndsIn name)
    (hr : r.IsDir (startOf base output)) :
    Ensures may base (Begun base output r) (makeDirs (stagingParent output)).run n r
      fun _ _ _ => True := by
  have hne := hends.way_ne_nil
  have hstart : ∀ a : Path, a.isAbsolute = (stagingParent output).isAbsolute →
      startOf base a = startOf base output := by
    intro a ha
    rw [startOf, startOf, ha, isAbsolute_stagingParent hne]
  refine (ensures_makeDirs (Begun.refl hr) (fun r' hr' => hstart _ rfl ▸ hr'.isDir) ?_).weaken
    fun _ _ _ _ _ _ => trivial
  intro a ha r' d m hr' hlegal hd habsent
  obtain ⟨hbelow, habs⟩ := Path.of_mem_ancestors ha
  rw [way_stagingParent hne, hlegal.way_eq] at hbelow
  rw [hstart a habs] at hd
  exact hr'.put hbelow hlegal.isStep hlegal.notLong hd habsent

end

/-! ## The way to the output after a swap

Whoever looks at the output afterwards follows its path once more.  It leads to the same directory:
either what stands at the output is what stood there, or the way did not lead through it. -/

section
variable {base D : Location} {output staging : Path} {name s : String} {r₁ r : FileTree}
  {files : List OutputFile} (h : Setting base output staging name s D r₁)
  (hoff : SameOff [D ++ [name], D ++ [s]] r₁ r)
include h hoff

/-- A directory in the place of nothing or of an empty directory keeps the way. -/
lemma Setting.keeps_of_empty (hdir : r.IsDir (D ++ [name]))
    (hold : r₁.at? (D ++ [name]) = none ∨ r₁.at? (D ++ [name]) = some (.dir [])) :
    Keeps r₁ r := by
  intro l y hl _
  by_cases hname : D ++ [name] <+: l
  · obtain ⟨rest, rfl⟩ := hname
    rw [label?_append] at hl
    rcases hold with hnone | hempty
    · rw [hnone] at hl
      exact absurd hl nofun
    · rw [hempty, Option.bind_some] at hl
      by_cases hrest : rest = []
      · subst hrest
        obtain rfl : Label.dir = y := Option.some.inj hl
        rw [List.append_nil]
        exact label?_eq_dir_iff.mpr hdir
      · rw [label?_eq_none_iff.mpr (isLeaf_dir_nil rest hrest)] at hl
        exact absurd hl nofun
  · exact h.label?_of_apart hoff hl hname

/-- Whether a swap has succeeded or left the output alone, its directory is where it was. -/
lemma Setting.reaches_of_cases (hcases : r.at? (D ++ [name]) = r₁.at? (D ++ [name]) ∨
      Replaced files base output D name r₁ r) :
    r.Reaches [] ((stagingParent output).route base) D ∧
      r.Reaches (startOf base output) output.way.dropLast D := by
  have hkept : Keeps r₁ r → r.Reaches [] ((stagingParent output).route base) D ∧
      r.Reaches (startOf base output) output.way.dropLast D :=
    fun hkeeps => ⟨h.staging.reaches.keeps hkeeps, h.own.keeps hkeeps⟩
  rcases hcases with hsame | ⟨⟨entries, hat, -⟩, -, hsteady | hold⟩
  · exact hkept (h.keeps_of_same hoff hsame)
  · exact ⟨h.reaches_of_steady hoff h.staging.reaches hsteady,
      h.reaches_of_steady hoff h.own (h.own_of_steady hsteady)⟩
  · exact hkept (h.keeps_of_empty hoff ⟨entries, hat⟩ hold)

end

/-! ## A staged build in two parts

The first part answers the path of the staging directory and what has come of the staging, since the
second is given both: it removes the directory, and answers what the first has come to. -/

/-- The part of a staged build before the staging directory is removed: its path, and what has come
of staging the build. -/
def staged (output : Path) (files : List OutputFile) :
    Writing (Path × Except WriteError Unit) := do
  let parent := stagingParent output
  writing parent (Script.makeDirs parent)
  let staging ← writing parent (Script.makeStaging parent)
  let result ← ExceptT.lift (stage staging output files).run
  return (staging, result)

/-- The removal of the staging directory. -/
def cleanup (output : Path) : Path × Except WriteError Unit → Writing Unit
  | (staging, .ok ()) => writing (stagingParent output) (Script.removeAll staging)
  | (staging, .error e) => do
    let _ ← ExceptT.lift (Script.removeAll staging).run
    throw e

/-- **A staged build is staged first and cleaned up then.** -/
theorem writeStaged_eq (output : Path) (files : List OutputFile) :
    writeStaged output files = staged output files >>= cleanup output := by
  simp only [writeStaged, staged, bind_assoc, pure_bind]
  refine congrArg _ (funext fun _ => congrArg _ (funext fun staging => congrArg _ (funext ?_)))
  rintro (e | u) <;> rfl

/-! ## The whole of a staged build

The budget of refusals is passed from part to part.  A refusal that is spent before the rename that
would put back the earlier build cannot be spent on that rename, which is how one refusal alone is
told from several. -/

/-- What holds at every moment of a staged build. -/
def Moment (files : List OutputFile) (base : Location) (output : Path) (name : String)
    (r₀ r : FileTree) : Prop :=
  Begun base output r₀ r ∨ ∃ D s staging r₁, Begun base output r₀ r₁ ∧
    Ground base output staging name s D r₁ ∧ (s ≠ name → Underway files base output D name s r₁ r)

/-- What holds once a build has been staged, or this has failed. -/
structure StagedAt (files : List OutputFile) (base : Location) (output : Path) (name : String)
    (r₀ : FileTree) (staging : Path) (result : Except WriteError Unit) (D : Location) (s : String)
    (r₁ r : FileTree) : Prop where
  begun : Begun base output r₀ r₁
  ground : Ground base output staging name s D r₁
  underway : s ≠ name → Underway files base output D name s r₁ r
  swapped : s ≠ name → Swapped files base output D name s r₁ result r
  self : s = name → result ≠ .ok ()

section
variable {may : Request → Prop} {base D : Location} {output staging : Path} {name s : String}
  {r₀ r₁ r : FileTree} {n : ℕ∞} {files : List OutputFile} {result : Except WriteError Unit}

/-- The part before the staging directory is removed has begun or has staged the build, unless that
has failed and what would put back the earlier build is refused. -/
lemma ensures_staged_or_lost (hbase : ∀ name ∈ base, Path.IsName name ∧ isLong name = false)
    (hends : output.EndsIn name) (hinside : ∀ f ∈ files, f.path.IsInside)
    (hr : r₀.IsDir (startOf base output)) :
    Ensures may base (Moment files base output name r₀) (staged output files).run n r₀
      fun result _ r => match result with
        | .ok (staging, result) => result = .ok () ∨ n ≤ 1 ∨
            (∀ staging : Path, ¬ may (.rename (staging.join "previous") output)) →
          ∃ D s r₁, StagedAt files base output name r₀ staging result D s r₁ r
        | .error _ => Begun base output r₀ r := by
  have hne := hends.way_ne_nil
  have hground : ∀ {staging D s r}, Begun base output r₀ r →
      IsStaging base (stagingParent output) r staging D s →
        Ground base output staging name s D r := fun {staging D s r} hbegun hstaging =>
    ⟨hbase, hends, hstaging, reaches_of_route hne hbase hbegun.isDir hstaging.reaches⟩
  have hdirs : Ensures may base (Moment files base output name r₀)
      (writing (stagingParent output) (makeDirs (stagingParent output))).run n r₀
      fun _ _ r => Begun base output r₀ r :=
    ensures_writing ((ensures_makeDirs_stagingParent hends hr).mono (fun _ => .inl)
      fun _ _ _ _ hr _ => hr)
  rw [staged]
  refine Ensures.andThen hdirs ?_ fun _ _ _ _ _ hbegun => hbegun
  intro u m r hm _ hbegun
  refine Ensures.andThen (ensures_writing (Q := fun result _ r' => match result with
    | .ok staging => ∃ D s, IsStaging base (stagingParent output) r staging D s ∧
        r' = r.put D s (.dir [])
    | .error _ => Begun base output r₀ r') ((ensures_makeStaging
      (I := Moment files base output name r₀) (fun t ht => (hbase t ht).1)
      (hbegun.isDir.above List.nil_prefix) ?_ (.inl hbegun)).weaken ?_)) ?_
    fun _ _ _ _ _ hbegun => hbegun
  · intro staging D s hstaging
    have hg := hground hbegun hstaging
    exact .inr ⟨D, s, staging, r, hbegun, hg, fun hs => hg.preparing.underway ⟨hg, hs⟩⟩
  · rintro (reason | staging) m' r' - - h
    · exact h ▸ hbegun
    · exact h
  · rintro staging m' r' hm' - ⟨D, s, hstaging, rfl⟩
    have hg := hground hbegun hstaging
    refine Ensures.liftThen (M := fun result _ r' => result = .ok () ∨ n ≤ 1 ∨
      (∀ staging : Path, ¬ may (.rename (staging.join "previous") output)) → StagedAt files base
        output name r₀ staging result D s r r') ?_ fun result k r' _ hr' h =>
          ensures_pure hr' fun hcases => ⟨D, s, r, h hcases⟩
    by_cases hs : s = name
    · subst hs
      refine (ensures_stage_self hg hinside).mono (fun r' _ => ?_)
        fun result k r' _ _ hfails _ => ?_
      · exact .inr ⟨D, s, staging, r, hbegun, hg, fun hs => absurd rfl hs⟩
      · exact ⟨hbegun, hg, fun hs => absurd rfl hs, fun hs => absurd rfl hs, fun _ => hfails⟩
    · refine (ensures_stage ⟨hg, hs⟩ hinside).mono (fun r' hr' => ?_)
        fun result k r' _ hr' hswapped hcases => ?_
      · exact .inr ⟨D, s, staging, r, hbegun, hg, fun _ => hr'⟩
      · have hswapped := hswapped
          (hcases.imp_right (Or.imp (hm'.trans hm).trans fun h => h staging))
        exact ⟨hbegun, hg, fun _ => hr', fun _ => hswapped, fun h => absurd h hs⟩

/-- **The part before the staging directory is removed** has begun or has staged the build. -/
theorem ensures_staged (hbase : ∀ name ∈ base, Path.IsName name ∧ isLong name = false)
    (hends : output.EndsIn name) (hinside : ∀ f ∈ files, f.path.IsInside)
    (hr : r₀.IsDir (startOf base output))
    (hrestore : n ≤ 1 ∨ ∀ staging : Path, ¬ may (.rename (staging.join "previous") output)) :
    Ensures may base (Moment files base output name r₀) (staged output files).run n r₀
      fun result _ r => match result with
        | .ok (staging, result) =>
          ∃ D s r₁, StagedAt files base output name r₀ staging result D s r₁ r
        | .error _ => Begun base output r₀ r := by
  refine (ensures_staged_or_lost hbase hends hinside hr).weaken ?_
  rintro (e | ⟨staging, result⟩) m r - - h
  · exact h
  · exact h (.inr hrestore)

/-! ### The removal of the staging directory

Removing it may be refused and may fail half-way, which is logged and no error.  The build is at the
output then, or it has failed already. -/

/-- What holds once a build has been staged still holds when something is lost below the staging
directory only. -/
lemma StagedAt.of_onlyLoses {r' : FileTree}
    (h : StagedAt files base output name r₀ staging result D s r₁ r)
    (hcases : s ≠ name → r.at? (D ++ [name]) = r₁.at? (D ++ [name]) ∨
      Replaced files base output D name r₁ r)
    (hlost : OnlyLoses (D ++ [s]) r r') :
    StagedAt files base output name r₀ staging result D s r₁ r' := by
  have hsame : s ≠ name → r'.at? (D ++ [name]) = r.at? (D ++ [name]) := fun hs =>
    hlost.sameOff.at? _ (by simpa using ⟨hs, Ne.symm hs⟩)
  have hreplaced : s ≠ name → Replaced files base output D name r₁ r →
      Replaced files base output D name r₁ r' := fun hs hr =>
    ⟨(hsame hs).symm ▸ hr.build, hr.legal, hr.way⟩
  refine ⟨h.begun, h.ground, fun hs => ⟨?_, ?_⟩, fun hs => ?_, h.self⟩
  · exact (h.underway hs).sameOff.trans (hlost.sameOff.widen (by simp))
  · rcases hcases hs with hkept | hr
    · exact .inl ((hsame hs).trans hkept)
    · exact .inr (.inl (hreplaced hs hr))
  · have hswapped := h.swapped hs
    rcases result with (e | u)
    · rcases hcases hs with hkept | hr
      · exact .inl ((hsame hs).trans hkept)
      · rcases hswapped with hkept | ⟨-, node, -, hnone, -⟩
        · exact .inl ((hsame hs).trans hkept)
        · obtain ⟨entries, hat, -⟩ := hr.build
          exact absurd (hnone.symm.trans hat) nofun
    · exact hreplaced hs hswapped

/-- Removing the staging directory changes nothing else.  If nothing is refused it is gone then. -/
lemma ensures_removeAll_staging
    (h : StagedAt files base output name r₀ staging result D s r₁ r) :
    Ensures may base (StagedAt files base output name r₀ staging result D s r₁)
      (removeAll staging).run n r fun removed _ r' =>
        n = 0 → s ≠ name → removed = .ok () → r'.standing base staging = none := by
  by_cases hs : s = name
  · refine Ensures.trivial.mono (fun r' _ => ?_) fun _ _ _ _ _ _ _ hs' => absurd hs hs'
    exact ⟨h.begun, h.ground, fun hne => absurd hs hne, fun hne => absurd hs hne, h.self⟩
  have hset : Setting base output staging name s D r₁ := ⟨h.ground, hs⟩
  have hoff := (h.underway hs).sameOff
  have hstart : startOf base staging = [] := by
    rw [startOf, h.ground.staging.absolute, if_pos rfl]
  have hway : staging.way.dropLast = (stagingParent output).route base := by
    rw [h.ground.staging.way, List.dropLast_concat]
  have hremove : (r.at? (D ++ [name]) = r₁.at? (D ++ [name]) ∨
      Replaced files base output D name r₁ r) →
      Ensures may base (StagedAt files base output name r₀ staging result D s r₁)
        (removeAll staging).run n r fun removed _ r' =>
          n = 0 → s ≠ name → removed = .ok () → r'.standing base staging = none := by
    intro hcases
    have hwalk : r.walkThrough linkLimit (startOf base staging) staging.way.dropLast = .ok D := by
      rw [hstart, hway]
      exact (hset.reaches_of_cases hoff hcases).1.walk
    refine (ensures_removeAll h.ground.staging.isLegal.toEndsIn hwalk ?_).mono
      (fun r' hr' => h.of_onlyLoses (fun _ => hcases) hr') fun _ _ _ _ _ hpost hn _ => (hpost hn).1
    rw [h.ground.staging.noSlash]
    exact fun hslash => absurd hslash Bool.false_ne_true
  have hswapped := h.swapped hs
  rcases result with (e | u)
  · rcases hswapped with hkept | ⟨hcut, -, -, hnone, -⟩
    · exact hremove (.inl hkept)
    · -- the way to the staging directory is cut off as well
      refine (ensures_removeAll_of_nothing h ?_).weaken fun _ _ _ _ _ hpost _ _ hok =>
        absurd hok hpost.2
      rw [standing]
      cases hplace : r.place base staging with
      | error reason => rfl
      | ok place =>
          have hlast := last_of_place h.ground.staging.isLegal.toEndsIn hplace
          obtain ⟨-, hwalk, -⟩ := walkThrough_of_place hplace hlast
          rw [hstart, hway] at hwalk
          exact absurd (hset.steady_of_walkThrough hoff hnone hwalk) hcut
  · exact hremove (.inr hswapped)

/-- **The removal of the staging directory** changes nothing else, and does not make good what has
failed. -/
theorem ensures_cleanup (h : StagedAt files base output name r₀ staging result D s r₁ r) :
    Ensures may base (StagedAt files base output name r₀ staging result D s r₁)
      (cleanup output (staging, result)).run n r fun final _ r' => final = .ok () →
        result = .ok () ∧ (n = 0 → s ≠ name → r'.standing base staging = none) := by
  rcases result with (e | u)
  · refine Ensures.liftThen (ensures_removeAll_staging h) fun _ _ _ _ hr' _ => ?_
    exact ensures_throw hr' nofun
  · refine ensures_writing ((ensures_removeAll_staging h).weaken ?_)
    rintro (reason | u) m r' - - hgone hok
    · cases hok
    · exact ⟨rfl, fun hn hs => hgone hn hs rfl⟩

lemma StagedAt.moment (h : StagedAt files base output name r₀ staging result D s r₁ r) :
    Moment files base output name r₀ r :=
  .inr ⟨D, s, staging, r₁, h.begun, h.ground, h.underway⟩

/-- **A staged build** has begun, or what stands at the output is what the staging has come to. -/
theorem ensures_writeStaged (hbase : ∀ name ∈ base, Path.IsName name ∧ isLong name = false)
    (hends : output.EndsIn name) (hinside : ∀ f ∈ files, f.path.IsInside)
    (hr : r₀.IsDir (startOf base output))
    (hrestore : n ≤ 1 ∨ ∀ staging : Path, ¬ may (.rename (staging.join "previous") output)) :
    Ensures may base (Moment files base output name r₀) (writeStaged output files).run n r₀
      fun final _ r => final ≠ .ok () ∧ Begun base output r₀ r ∨
        ∃ staging result D s r₁, StagedAt files base output name r₀ staging result D s r₁ r ∧
          (final = .ok () → result = .ok () ∧
            (n = 0 → s ≠ name → r.standing base staging = none)) := by
  rw [writeStaged_eq]
  refine Ensures.andThen (ensures_staged hbase hends hinside hr hrestore) ?_
    fun e _ _ _ _ hbegun => .inl ⟨nofun, hbegun⟩
  rintro ⟨staging, result⟩ m r hm - ⟨D, s, r₁, h⟩
  refine (ensures_cleanup h).mono (fun _ => StagedAt.moment) fun final k r' _ hr' hfinal => ?_
  refine .inr ⟨staging, result, D, s, r₁, hr', fun hok => ⟨(hfinal hok).1, fun hn => ?_⟩⟩
  exact (hfinal hok).2 (by simpa [hn] using hm)

/-- **A staged build that succeeds** stands at its output, whatever has been refused. -/
theorem ensures_writeStaged_build (hbase : ∀ name ∈ base, Path.IsName name ∧ isLong name = false)
    (hends : output.EndsIn name) (hinside : ∀ f ∈ files, f.path.IsInside)
    (hr : r₀.IsDir (startOf base output)) :
    Ensures may base (fun _ => True) (writeStaged output files).run n r₀ fun final _ r =>
      final = .ok () → ∃ staging D s r₁,
        StagedAt files base output name r₀ staging (.ok ()) D s r₁ r := by
  rw [writeStaged_eq]
  refine Ensures.andThen ((ensures_staged_or_lost hbase hends hinside hr).mono (fun _ _ => trivial)
    fun _ _ _ _ _ h => h) ?_ fun _ _ _ _ _ _ => nofun
  rintro ⟨staging, (e | u)⟩ m r - - hstaged
  · refine Ensures.liftThen Ensures.trivial fun _ _ _ _ _ _ => ensures_throw trivial nofun
  · obtain ⟨D, s, r₁, h⟩ := hstaged (.inl rfl)
    refine (ensures_cleanup h).mono (fun _ _ => trivial) fun final k r' _ hr' _ _ => ?_
    exact ⟨staging, D, s, r₁, hr'⟩

end

end Build

end WorkerGen
