import Mathlib
import WorkerGen.Proofs.Host.Making

/-!
# Staging directories

What `makeStaging` ensures: a directory with a new name in a directory, known by a path from the
root.  Nothing else is changed, whatever is refused.

A name that is hard to guess is drawn until one is found that nothing has.  How many times that is
tried does not matter to the proof: each attempt makes a directory where there is nothing, or
changes nothing.  The path of the directory is made absolute first, from the working directory, so
that what is staged is found again without it (`Path.route`).

`IsStaging` has all that the later steps ask of the directory: its name is one that no file of a
build has, its path is short enough for the system, and the names of the path lead to where the
directory is put.
-/

namespace WorkerGen

/-! ## Paths from the root

The working directory is a location with plain names, and a relative path goes on from there. -/

/-- The names that lead from the root along a path. -/
def Path.route (base : Location) (p : Path) : List String :=
  if p.isAbsolute then p.way else base ++ p.way

/-- What the names of staging directories are. -/
def IsStagingName (name : String) : Prop := ∃ text, name = Script.stagingStart ++ text

namespace Script

open FileTree

/-- A staging directory can be made in the directory that a path leads to. -/
structure IsStaging (base : Location) (parent : Path) (r : FileTree) (staging : Path) (D : Location)
    (s : String) : Prop where
  absolute : staging.isAbsolute = true
  isLegal : staging.IsLegal s
  way : staging.way = parent.route base ++ [s]
  isName : Path.IsName s
  isStagingName : IsStagingName s
  noSlash : staging.endsWithSlash = false
  reaches : r.Reaches [] (parent.route base) D
  absent : r.at? (D ++ [s]) = none

/-- What has come of making a staging directory in the directory that a path leads to: it is there,
or nothing has changed. -/
def MadeStaging (base : Location) (parent : Path) (r : FileTree) :
    Except IoFault Path → FileTree → Prop
  | .ok staging, r' => ∃ D s, IsStaging base parent r staging D s ∧ r' = r.put D s (.dir [])
  | .error _, r' => r' = r

/-! ## Making a staging directory

A script that asks for names and makes directories, with a bound on how often it does so. -/

section
variable {may : Request → Prop} {base : Location} {I : FileTree → Prop} {n : ℕ∞} {r : FileTree}
  {parent dir : Path}

/-- Names that are hard to guess have no slash. -/
lemma ensures_randomName (hr : I r) :
    Ensures may base I (request .randomName) n r
      fun result _ r' => r' = r ∧ ∀ name, result = .ok name → '/' ∉ name.toList := by
  refine ensures_request hr (fun w hw => ?_) fun _ _ _ _ => ⟨rfl, nofun⟩
  obtain ⟨rfl, rfl, hnames⟩ := hw
  refine ⟨hr, rfl, fun name h => ?_⟩
  obtain rfl : w.randomNames.head?.getD "" = name := Except.ok.inj h
  cases hhead : w.randomNames.head? with
  | none => simp
  | some name => exact hnames name (List.mem_of_head? hhead)

lemma ensures_workDir (hr : I r) :
    Ensures may base I (request .workDir) n r
      fun result _ r' => r' = r ∧ ∀ p, result = .ok p → p = base.path := by
  refine ensures_request hr (fun w hw => ?_) fun _ _ _ _ => ⟨rfl, nofun⟩
  obtain ⟨rfl, rfl, -⟩ := hw
  exact ⟨hr, rfl, fun p h => (Except.ok.inj h).symm⟩

lemma isName_staging {text : String} (h : '/' ∉ text.toList) :
    Path.IsName (stagingStart ++ text) := by
  have hlist : (stagingStart ++ text).toList
      = '.' :: 's' :: 'k' :: ("yway-".toList ++ text.toList) := by
    rw [String.toList_append]
    rfl
  refine ⟨?_, ?_, ?_, ?_⟩
  · intro heq
    simpa [hlist] using congrArg String.toList heq
  · intro heq
    simpa [hlist] using congrArg String.toList heq
  · intro heq
    simpa [hlist] using congrArg String.toList heq
  · rw [String.toList_append, List.mem_append, not_or]
    exact ⟨by decide, h⟩

/-- Making a directory with a new name in a directory that is known from the root. -/
lemma ensures_makeStagingIn (habs : dir.isAbsolute = true) (hway : dir.way = parent.route base)
    (hroot : r.IsDir [])
    (hmade : ∀ staging D s, IsStaging base parent r staging D s → I (r.put D s (.dir []))) :
    ∀ {attempts : ℕ} {n : ℕ∞}, I r →
      Ensures may base I (makeStagingIn dir attempts).run n r
        fun result _ r' => MadeStaging base parent r result r'
  | 0, n, hr => ensures_throw hr rfl
  | attempts + 1, n, hr => by
      refine Ensures.andThen (ensures_randomName hr) ?_ fun _ _ _ _ _ h => h.1
      rintro text m r' - hr' ⟨hsame, htext⟩
      obtain rfl : r = r' := hsame.symm
      have hname := isName_staging (htext text rfl)
      have hpath := Path.way_join (p := dir) hname.isAbsolute
      have habs' := (Path.isAbsolute_join (p := dir) hname.isAbsolute).trans habs
      have hslash := (Path.endsWithSlash_join (p := dir) hname.isAbsolute hname.nonempty).trans
        hname.endsWithSlash
      rw [hname.way, hway] at hpath
      have hstart : startOf base (dir.join ⟨stagingStart ++ text⟩) = [] := by
        rw [startOf, habs', if_pos rfl]
      refine Ensures.liftThen (ensures_makeDir (Q := fun result _ r'' => MadeStaging base parent r
        (result.map fun _ => dir.join ⟨stagingStart ++ text⟩) r'') hr' (hstart ▸ hroot) ?_
          fun _ _ _ => rfl) ?_
      · intro D s hend hreach habsent
        have hs : stagingStart ++ text = s := by
          have hlast := hend.way_eq
          rw [hpath, List.dropLast_concat, List.append_cancel_left_eq] at hlast
          simpa using hlast
        subst hs
        rw [hstart, hpath, List.dropLast_concat] at hreach
        have hstaging : IsStaging base parent r (dir.join ⟨stagingStart ++ text⟩) D
            (stagingStart ++ text) :=
          ⟨habs', hend, hpath, hname, ⟨text, rfl⟩, hslash, hreach, habsent⟩
        exact ⟨hmade _ D _ hstaging, D, _, hstaging, rfl⟩
      · rintro (reason | u) m' r'' - hr'' hmid
        · obtain rfl : r = r'' := hmid.symm
          cases reason
          case alreadyExists => exact ensures_makeStagingIn habs hway hroot hmade hr''
          all_goals exact ensures_throw hr'' rfl
        · exact ensures_pure hr'' hmid

/-- **A staging directory** is made in the directory that a path leads to, as seen from the root, or
nothing is. -/
theorem ensures_makeStaging (hbase : ∀ name ∈ base, Path.IsName name) (hroot : r.IsDir [])
    (hmade : ∀ staging D s, IsStaging base parent r staging D s → I (r.put D s (.dir [])))
    (hr : I r) :
    Ensures may base I (makeStaging parent).run n r
      fun result _ r' => MadeStaging base parent r result r' := by
  rw [makeStaging]
  split_ifs with habs
  · exact ensures_makeStagingIn habs (by rw [Path.route, if_pos habs]) hroot hmade hr
  · refine Ensures.andThen (ensures_workDir hr) ?_ fun _ _ _ _ _ h => h.1
    rintro p m r' - hr' ⟨rfl, hp⟩
    obtain rfl := hp p rfl
    have hrelative : parent.isAbsolute = false := by simpa using habs
    refine ensures_makeStagingIn ?_ ?_ hroot hmade hr'
    · rw [Path.isAbsolute_join hrelative, Path.isAbsolute_location]
    · rw [Path.way_join hrelative, Path.way_location hbase, Path.route, if_neg habs]

end

end Script

end WorkerGen
