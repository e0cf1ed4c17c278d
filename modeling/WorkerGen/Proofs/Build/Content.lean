import Mathlib
import WorkerGen.Build.Write
import WorkerGen.Proofs.Host.Removal

/-!
# What a build consists of

`Build.IsBuild` says when a tree is the build of some files: at every location stands what the files
say, and nothing else.  What they say is `expected`: a file at the path of one, the last if there
are several, a directory on the way to one or to the handlers, and nothing anywhere else.  It is a
function of the location, so two builds of the same files are equal label by label, and adding a
file changes it in one way that does not depend on the others (`expected_concat`).

A build comes to be in two steps.

* `ensures_makeFresh` — an output directory is made anew with an empty directory for handlers, which
  makes it the build of no files (`label?_fresh`).  The directories that it is in are made with it
  if need be, and `Fresh` has the cases: it is not there yet, or it is and nothing else has come.
* `ensures_writeFiles` — each file that is written adds itself, by induction on the files, with the
  files before as those of the build so far.

The paths of files lead down below the output (`Path.IsInside`).  A file that is written where an
earlier one needs a directory cannot be written, and neither can the converse, so that of a build
that succeeds no file is in the way of another.
-/

namespace WorkerGen

namespace Build

open FileTree Script

/-! ## The build of some files

A location is looked up among the files by the names of their paths, since two texts may name one
file. -/

/-- The last of the files whose path leads to a location. -/
def fileAt? (files : List OutputFile) (l : Location) : Option OutputFile :=
  files.reverse.find? fun f => f.path.way = l

/-- What stands at a location of the build of some files: a file, or a directory on the way to one
or to the handlers. -/
def expected (files : List OutputFile) (l : Location) : Option Label :=
  match fileAt? files l with
  | some f => some (.file f.content.toUTF8)
  | none =>
    if l <+: Target.handlersDir.way ∨ ∃ f ∈ files, l <+: f.path.way then some .dir else none

/-- Whether a tree is the build of some files. -/
def IsBuild (files : List OutputFile) (t : FileTree) : Prop := ∀ l, t.label? l = expected files l

lemma way_handlersDir : Target.handlersDir.way = ["handlers"] := by decide

section
variable {files : List OutputFile} {f : OutputFile} {l : Location}

lemma expected_ne_link (target : Path) : expected files l ≠ some (.link target) := by
  rw [expected]
  split
  · simp
  · split_ifs <;> simp

/-- A file that is added stands at its path, with directories on the way to it. -/
lemma expected_concat (hfile : ∀ old, l <+: f.path.way → l ≠ f.path.way →
      expected files l ≠ some (.file old)) :
    expected (files ++ [f]) l = if l = f.path.way then some (.file f.content.toUTF8)
      else if l <+: f.path.way then some .dir else expected files l := by
  rw [expected, fileAt?, List.reverse_concat]
  by_cases heq : l = f.path.way
  · rw [List.find?_cons_of_pos (by simp [heq]), if_pos heq]
  rw [List.find?_cons_of_neg (by simpa using Ne.symm heq), if_neg heq, ← fileAt?]
  by_cases hbelow : l <+: f.path.way
  · rw [if_pos hbelow]
    cases hat : fileAt? files l with
    | some old =>
        refine absurd ?_ (hfile old.content.toUTF8 hbelow heq)
        rw [expected, hat]
    | none => exact if_pos (.inr ⟨f, by simp, hbelow⟩)
  · have hor : (∃ g ∈ files ++ [f], l <+: g.path.way) ↔ ∃ g ∈ files, l <+: g.path.way := by
      simp [or_and_right, exists_or, hbelow]
    rw [if_neg hbelow, expected]
    simp only [hor]

end

/-! ## Making an output directory

The directory for handlers is made with all that it is in, so that the output directory is made on
the way.  Where the way to the output leads is known of what was there before, and of what is new if
the names do not go back; `Fresh` is what an invariant has to say for both. -/

/-- What holds while an output directory is made, which its parent's names `k` and a name of its own
lead to: it is not there yet, or it is new. -/
inductive Fresh (start : Location) (k : List String) (name : String) (r₀ r : FileTree) : Prop
  | missing (isDir : r.IsDir start) (notThere : ∀ x, ¬ r.Reaches start (k ++ [name]) x)
      (same : (∃ D, r₀.Reaches start k D) → r = r₀)
  | made (d : Location) (reaches : r.Reaches start k d) (notLong : isLong name = false)
      (new : r.at? (d ++ [name]) = some (.dir []) ∨
        r.at? (d ++ [name]) = some (.dir [("handlers", .dir [])]))
      (sameOff : (∃ D, r₀.Reaches start k D) →
        r₀.Reaches start k d ∧ r₀.at? (d ++ [name]) = none ∧ SameOff [d ++ [name]] r₀ r)

namespace Fresh

variable {start d : Location} {k : List String} {name m : String} {r₀ r : FileTree}

lemma isDir_start (h : Fresh start k name r₀ r) : r.IsDir start := by
  cases h with
  | missing isDir notThere same => exact isDir
  | made d reaches notLong new sameOff => exact reaches.isDir_start

/-- What has been made is reached. -/
lemma reaches_self (hname : IsStep name) (hreach : r.Reaches start k d)
    (hlong : isLong name = false) (hdir : r.IsDir (d ++ [name])) :
    r.Reaches start (k ++ [name]) (d ++ [name]) :=
  hreach.append hdir (by simpa using ⟨hname, hlong⟩)

/-- An output directory that is there is where its parent was already, and it is new. -/
lemma eq_of_reaches {D : Location} (h : Fresh start k name r₀ r) (hname : IsStep name)
    (hD : r₀.Reaches start k D) (hreach : r.Reaches start k d) (hlong : isLong name = false)
    (hdir : r.IsDir (d ++ [name])) :
    d = D ∧ r₀.at? (D ++ [name]) = none ∧ SameOff [D ++ [name]] r₀ r := by
  cases h with
  | missing isDir notThere same =>
      exact absurd (reaches_self hname hreach hlong hdir) (notThere _)
  | made d' reaches notLong new sameOff =>
      obtain ⟨hd', habsent, hoff⟩ := sameOff ⟨D, hD⟩
      obtain rfl := hd'.unique hD
      exact ⟨hreach.unique reaches, habsent, hoff⟩

/-! ### Steps of making

Each directory that is made is above the output, the output itself, or in it, and in each case what
holds while it is made is kept. -/

/-- The directories on the way to an output directory may be made, unless some of its names go
back and its parent is missing. -/
lemma put_above {way : List String} (hname : IsStep name)
    (hparent : ".." ∉ k ∨ ∃ D, r₀.Reaches start k D) (hdots : ∀ t ∈ k, t ≠ ".")
    (hway : way ++ [m] <+: k) (hm : IsStep m) (hlong : isLong m = false)
    (h : Fresh start k name r₀ r) (hd : r.Reaches start way d) (habsent : r.at? (d ++ [m]) = none) :
    Fresh start k name r₀ (r.put d m (.dir [])) := by
  obtain ⟨more, rfl⟩ := hway
  have hno : ∀ x, ¬ r.Reaches start (way ++ [m] ++ more) x := by
    intro x hx
    rw [List.append_assoc, List.singleton_append] at hx
    exact hd.not_of_absent hm habsent hx
  cases h with
  | made d' reaches notLong new sameOff => exact absurd reaches (hno d')
  | missing isDir notThere same =>
      have hno₀ : ¬ ∃ D, r₀.Reaches start (way ++ [m] ++ more) D := by
        rintro ⟨D, hD⟩
        rw [same ⟨D, hD⟩] at hno
        exact hno D hD
      have hback := hparent.resolve_right hno₀
      have hkeeps : Keeps r (r.put d m (.dir [])) :=
        .put (by simp [habsent])
      have hnew : (r.put d m (.dir [])).at? (d ++ [m]) = some (.dir []) := at?_put_self hd.isDir _
      have hreach : (r.put d m (.dir [])).Reaches start (way ++ [m]) (d ++ [m]) :=
        reaches_self hm (hd.keeps hkeeps) hlong ⟨[], hnew⟩
      refine missing hreach.isDir_start (fun x hx => ?_) fun h => absurd h hno₀
      have hsteps : ∀ t ∈ more ++ [name], IsStep t := by
        intro t ht
        rcases List.mem_append.mp ht with ht | ht
        · exact ⟨hdots t (by simp [ht]), fun h => hback (by simp [← h, ht])⟩
        · rwa [List.mem_singleton.mp ht]
      rw [List.append_assoc] at hx
      exact hreach.not_below_empty hnew (by simp) hsteps hx

/-- The output directory is made. -/
lemma put_self (hlong : isLong name = false) (h : Fresh start k name r₀ r)
    (hd : r.Reaches start k d) (habsent : r.at? (d ++ [name]) = none) :
    Fresh start k name r₀ (r.put d name (.dir [])) := by
  have hkeeps : Keeps r (r.put d name (.dir [])) :=
    .put (by simp [habsent])
  refine made d (hd.keeps hkeeps) hlong (.inl (at?_put_self hd.isDir _)) fun hD => ?_
  cases h with
  | missing isDir notThere same =>
      obtain rfl := same hD
      exact ⟨hd, habsent, SameOff.put r d name _⟩
  | made d' reaches notLong new sameOff =>
      obtain rfl := reaches.unique hd
      rcases new with new | new
      all_goals
        rw [new] at habsent
        exact absurd habsent (by simp)

/-- The directory of the handlers is made in it. -/
lemma put_handlers (hname : IsStep name) (h : Fresh start k name r₀ r)
    (hd : r.Reaches start (k ++ [name]) d) (habsent : r.at? (d ++ ["handlers"]) = none) :
    Fresh start k name r₀ (r.put d "handlers" (.dir [])) := by
  cases h with
  | missing isDir notThere same => exact absurd hd (notThere d)
  | made d' reaches notLong new sameOff =>
      have hdir : r.IsDir (d' ++ [name]) := new.elim (fun h => ⟨_, h⟩) fun h => ⟨_, h⟩
      obtain rfl := hd.unique (reaches_self hname reaches notLong hdir)
      have hkeeps : Keeps r (r.put (d' ++ [name]) "handlers" (.dir [])) :=
        .put (by rw [habsent]; exact nofun)
      have hempty : r.at? (d' ++ [name]) = some (.dir []) := by
        refine new.resolve_right fun h => ?_
        rw [at?_concat, h] at habsent
        exact absurd habsent (by decide)
      have hself : (r.put (d' ++ [name] ++ []) "handlers" (.dir [])).at? (d' ++ [name])
          = (r.at? (d' ++ [name])).map (·.put [] "handlers" (.dir [])) := at?_put_append [] _
      rw [List.append_nil, hempty] at hself
      refine made d' (reaches.keeps hkeeps) notLong (.inr hself) fun hD => ?_
      obtain ⟨hd', habsent', hoff⟩ := sameOff hD
      refine ⟨hd', habsent', hoff.trans ((SameOff.put r _ _ _).widen ?_)⟩
      simp

end Fresh

section
variable {may : Request → Prop} {base : Location} {b : Path} {k : List String} {name : String}
  {n : ℕ∞} {r₀ r : FileTree}

lemma way_handlersIn (b : Path) : (handlersIn b).way = b.way ++ ["handlers"] := by
  rw [handlersIn, Path.way_join (by decide), way_handlersDir]

lemma isAbsolute_handlersIn (b : Path) : (handlersIn b).isAbsolute = b.isAbsolute :=
  Path.isAbsolute_join (by decide)

lemma getLast?_handlersIn (b : Path) : (handlersIn b).EndsIn "handlers" := by
  refine ⟨?_, by decide, by decide⟩
  rw [handlersIn, Path.names_join (by decide), List.getLast?_append_of_ne_nil _ (by decide)]
  decide

/-! ### The new directory

The three steps cover every directory that a request can make, by where its path ends on the way. -/

/-- **An output directory is made anew** with an empty directory for handlers, unless it is there
already or some of its names go back and its parent is missing. -/
theorem ensures_makeFresh (hway : b.way = k ++ [name]) (hname : IsStep name)
    (hparent : ".." ∉ k ∨ ∃ D, r₀.Reaches (startOf base b) k D)
    (hr : Fresh (startOf base b) k name r₀ r) :
    Ensures may base (Fresh (startOf base b) k name r₀) (makeDirs (handlersIn b)).run n r
      fun result _ r' => result = .ok () → ∃ d, r'.Reaches (startOf base b) k d ∧
        isLong name = false ∧ r'.at? (d ++ [name]) = some (.dir [("handlers", .dir [])]) := by
  have hstart : ∀ a : Path, a.isAbsolute = (handlersIn b).isAbsolute →
      startOf base a = startOf base b := by
    intro a ha
    rw [startOf, startOf, ha, isAbsolute_handlersIn]
  have hdots : ∀ t ∈ k, t ≠ "." := fun t ht =>
    (Path.mem_way (p := b) (by rw [hway]; exact List.mem_append_left _ ht)).2.1
  refine (ensures_makeDirs hr (fun r' hr' => hstart _ rfl ▸ hr'.isDir_start) fun a ha => ?_).weaken
    fun result m r' _ hr' h hresult => ?_
  · obtain ⟨hbelow, habs⟩ := Path.of_mem_ancestors ha
    intro r' d last hr' hlegal hd habsent
    rw [hstart a habs] at hd
    rw [way_handlersIn, hway, hlegal.way_eq, List.prefix_concat_iff, List.prefix_concat_iff]
      at hbelow
    rcases hbelow with hhandlers | hself | habove
    · obtain ⟨hk, hlast⟩ := List.append_inj' hhandlers rfl
      obtain rfl : last = "handlers" := by simpa using hlast
      rw [hk] at hd
      exact hr'.put_handlers hname hd habsent
    · obtain ⟨hk, hlast⟩ := List.append_inj' hself rfl
      obtain rfl : last = name := by simpa using hlast
      rw [hk] at hd
      exact hr'.put_self hlegal.notLong hd habsent
    · exact hr'.put_above hname hparent hdots habove hlegal.isStep hlegal.notLong hd habsent
  · have hdir : r'.DirAt base (handlersIn b) := by
      refine (h hresult).resolve_right fun hnone => ?_
      obtain ⟨q, hq⟩ := Path.exists_parent? (p := handlersIn b) (by simp [way_handlersIn])
      exact absurd (hnone.symm.trans hq) (by simp)
    obtain ⟨place, node, hplace, hnode⟩ := hdir.exists_place
    have hlast := last_of_place (getLast?_handlersIn b) hplace
    obtain ⟨-, hwalk, -⟩ := walkThrough_of_place hplace hlast
    rw [World.nodeAt?_eq _ hlast] at hnode
    rw [hstart _ rfl, way_handlersIn, List.dropLast_concat, hway] at hwalk
    have hreach : r'.Reaches (startOf base b) (k ++ [name]) place.dir := ⟨hr'.isDir_start, hwalk⟩
    cases hr' with
    | missing isDir notThere same => exact absurd hreach (notThere _)
    | made d reaches notLong new sameOff =>
        refine ⟨d, reaches, notLong, new.resolve_left fun hempty => ?_⟩
        have hself := Fresh.reaches_self hname reaches notLong ⟨_, hempty⟩
        rw [hreach.unique hself, at?_concat, hempty] at hnode
        exact absurd hnode (by simp [child?])

/-- A new output directory is the build of no files. -/
lemma label?_fresh {B : Location} (h : r.at? B = some (.dir [("handlers", .dir [])]))
    (l : Location) : r.label? (B ++ l) = expected [] l := by
  rw [label?_append, h, Option.bind_some, expected, way_handlersDir]
  match l with
  | [] => rfl
  | t :: rest =>
      by_cases ht : t = "handlers"
      · subst ht
        cases rest with
        | nil => rfl
        | cons u rest => simp [FileTree.label?, at?_cons, child?, fileAt?]
      · simp [FileTree.label?, at?_cons, child?, fileAt?, List.lookup_cons,
          beq_eq_false_iff_ne.mpr ht, ht]

end

/-! ## Writing the files

A refusal anywhere is an error at the path of a file, and the files before it have been written. -/

section
variable {may : Request → Prop} {base B : Location} {b : Path} {n : ℕ∞} {r : FileTree}
  {I : FileTree → Prop} {α : Type}

/-- A step whose refusal is an error at a path. -/
lemma ensures_writing {path : Path} {step : Attempt α}
    {Q : Except WriteError α → ℕ∞ → FileTree → Prop}
    (h : Ensures may base I step.run n r fun result m r' =>
      Q (result.mapError (WriteError.mk path)) m r') :
    Ensures may base I (writing path step).run n r Q := by
  refine Ensures.bind h fun result m r' _ hr' hpost => ?_
  cases result with
  | ok a => exact ensures_done hr' hpost
  | error reason => exact ensures_done hr' hpost

/-- **Writing the files** of a build below a directory adds them to what is there. -/
theorem ensures_writeFiles : ∀ {files earlier : List OutputFile} {n : ℕ∞} {r : FileTree},
    (∀ f ∈ files, f.path.IsInside) → r.Reaches (startOf base b) b.way B →
    (∀ l, r.label? (B ++ l) = expected earlier l) →
      Ensures may base (fun r' => SameOff [B] r r' ∧ r'.Reaches (startOf base b) b.way B)
        (writeFiles b files).run n r fun result _ r' => result = .ok () →
          ∀ l, r'.label? (B ++ l) = expected (earlier ++ files) l
  | [], earlier, n, r, _, hreach, hlabels =>
      ensures_pure ⟨SameOff.refl _ r, hreach⟩ fun _ => by simpa using hlabels
  | f :: rest, earlier, n, r, hinside, hreach, hlabels => by
      rw [List.forall_mem_cons] at hinside
      have hlinks : r.Linkless B := by
        rintro _ target ⟨l, rfl⟩
        rw [hlabels]
        exact expected_ne_link target
      have hwrite : Ensures may base _ (Script.writeText (b.join f.path) f.content).run n r _ :=
        ensures_writeFile hinside.1 hreach hlinks
      rw [writeFiles]
      refine Ensures.andThen (ensures_writing (Q := fun result _ r' => result = .ok () →
        ∀ l, r'.label? (B ++ l) = expected (earlier ++ [f]) l)
          (hwrite.weaken fun result m r' _ _ h hresult l => ?_)) ?_ fun _ _ _ _ _ _ => nofun
      · cases result with
        | error reason => cases hresult
        | ok u =>
            obtain ⟨hlabel, hfile⟩ := h rfl
            rw [hlabel, hlabels, expected_concat]
            intro old hbelow hne
            rw [← hlabels]
            exact hfile l old hbelow hne
      · intro u m r' _ hr' h
        have hrest := ensures_writeFiles (n := m) hinside.2 hr'.2 (h rfl)
        refine hrest.mono (fun r'' hr'' => ⟨hr'.1.trans hr''.1, hr''.2⟩) ?_
        intro result m' r'' _ _ h hresult l
        rw [h hresult, List.append_assoc, List.singleton_append]

end

end Build

end WorkerGen
