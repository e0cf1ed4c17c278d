import Mathlib
import WorkerGen.Proofs.Host.Making

/-!
# Removing directories

What `removeAll` ensures, whatever is refused on the way: nothing is lost but what stands at the
path and below (`ensures_removeAll`).  If nothing is refused, nothing stands at the path in the end.

A directory is removed by opening it, emptying it and removing it by its path.  Emptying goes by the
open directory, that is, by a location, so that the way to it does not matter any more; the entries
are taken one by one, and a directory among them is opened and emptied in its turn.  The recursion
is over the depth that is allowed, and `ensures_emptyDir` is by induction on it, with an induction
over the entries inside.

What is kept at every moment is `OnlyLoses`: something is gone, nothing has come, and all of it is
at one location or below.  Two parts of a tree that has only lost nodes are needed at the end, where
the path is followed once more: it leads to the same directory as before (`eq_of_place_of_lost`),
and nothing stands at it that did not (`standing_of_lost`).

A link is removed and not followed, and where nothing stands there is nothing to remove
(`ensures_removeAll_of_nothing`), which is not an error by itself.  What it takes for an error is
the matter of the callers.
-/

namespace WorkerGen

namespace Script

open FileTree

/-- What holds while something is removed: only there, and below, something is lost. -/
structure OnlyLoses (X : Location) (r r' : FileTree) : Prop where
  sameOff : SameOff [X] r r'
  lost : Lost r r'

namespace OnlyLoses

variable {X d : Location} {name : String} {r r' : FileTree}

lemma refl (X : Location) (r : FileTree) : OnlyLoses X r r := ⟨SameOff.refl _ r, Lost.refl r⟩

lemma erase (h : OnlyLoses X r r') (hX : X <+: d ++ [name]) :
    OnlyLoses X r (r'.erase d name) :=
  ⟨h.sameOff.trans ((SameOff.erase r' d name).widen (by simpa using hX)),
    h.lost.trans (Lost.erase r' d name)⟩

end OnlyLoses

section
variable {may : Request → Prop} {base X d : Location} {r₀ r : FileTree} {p : Path} {n : ℕ∞}
  {name : String}

/-! ## Requests

A request on an open directory names an entry, and removes it or changes nothing. -/

lemma ensures_removeDirIn (hr : OnlyLoses X r₀ r) (hX : X <+: d ++ [name]) :
    Ensures may base (OnlyLoses X r₀) (request (.removeDirIn d name)) n r fun _ _ _ => True := by
  refine ensures_request hr (fun w hw => ?_) fun _ _ _ _ => trivial
  obtain ⟨rfl, rfl, -⟩ := hw
  rw [World.answer]
  cases hremove : w.removeDirIn d name with
  | error reason => exact ⟨hr, trivial⟩
  | ok w' =>
      obtain rfl := World.eq_of_removeDirIn hremove
      exact ⟨hr.erase hX, trivial⟩

lemma ensures_removeFileIn (hr : OnlyLoses X r₀ r) (hX : X <+: d ++ [name]) :
    Ensures may base (OnlyLoses X r₀) (request (.removeFileIn d name)) n r fun _ _ _ => True := by
  refine ensures_request hr (fun w hw => ?_) fun _ _ _ _ => trivial
  obtain ⟨rfl, rfl, -⟩ := hw
  rw [World.answer]
  cases hremove : w.removeFileIn d name with
  | error reason => exact ⟨hr, trivial⟩
  | ok w' =>
      obtain rfl := World.eq_of_removeFileIn hremove
      exact ⟨hr.erase hX, trivial⟩

/-- The entries of a directory are listed, unless that is refused. -/
lemma ensures_entries {I : FileTree → Prop} (hr : I r) :
    Ensures may base I (request (.entries d)) n r
      fun result _ r' => r' = r ∧ (n = 0 → r.IsDir d → ∃ entries, result = .ok entries) := by
  refine ensures_request hr (fun w hw => ?_) fun reason m hm _ => ⟨rfl, fun h => ?_⟩
  · obtain ⟨rfl, rfl, -⟩ := hw
    refine ⟨hr, rfl, fun _ ⟨entries, hdir⟩ => ?_⟩
    rw [World.answer, World.entries, hdir]
    exact ⟨_, rfl⟩
  · rw [hm] at h
    exact absurd h (by simp)

/-! ## Open directories

Only entries that are listed are removed, and an entry that is gone when its turn comes is passed
over.  After all of them nothing is left, unless a request has been refused. -/

lemma ensures_removeEntry {empty : Location → Attempt Unit} {kind : FileKind} {m : ℕ∞}
    (hempty : ∀ {m : ℕ∞} {r : FileTree} {d : Location}, X <+: d → OnlyLoses X r₀ r →
      Ensures may base (OnlyLoses X r₀) (empty d).run m r fun _ _ _ => True)
    (hX : X <+: d) (hr : OnlyLoses X r₀ r) :
    Ensures may base (OnlyLoses X r₀) (removeEntry empty d name kind).run m r
      fun _ _ _ => True := by
  have hentry : X <+: d ++ [name] := hX.trans (List.prefix_append d [name])
  cases kind with
  | file | link => exact ensures_removeFileIn hr hentry
  | dir =>
      exact (hempty hentry hr).andThen (fun _ _ _ _ hr' _ => ensures_removeDirIn hr' hentry)
        fun _ _ _ _ _ _ => trivial

lemma ensures_removeEntries {empty : Location → Attempt Unit}
    (hempty : ∀ {m : ℕ∞} {r : FileTree} {d : Location}, X <+: d → OnlyLoses X r₀ r →
      Ensures may base (OnlyLoses X r₀) (empty d).run m r fun _ _ _ => True)
    (hX : X <+: d) : ∀ {entries : List (String × FileKind)} {m : ℕ∞} {r : FileTree},
      OnlyLoses X r₀ r → Ensures may base (OnlyLoses X r₀) (removeEntries empty d entries).run m r
        fun result _ _ => result ≠ .error .notFound
  | [], m, r, hr => ensures_pure hr (by simp)
  | (name, kind) :: rest, m, r, hr => by
      refine Ensures.andThen (M := fun result _ _ => result ≠ .error .notFound) ?_
        (fun _ _ _ _ hr' _ => ensures_removeEntries hempty hX hr') fun e _ _ _ _ h => ?_
      · refine ((ensures_removeEntry hempty hX hr).weaken fun result m' r' _ _ _ => ?_).tolerant
        cases result with
        | ok u => simp
        | error reason => cases reason <;> simp
      · simpa using h

/-- **Emptying a directory** loses only what is below it, and does not fail because there is
nothing. -/
theorem ensures_emptyDir : ∀ {depth : ℕ} {m : ℕ∞} {r : FileTree} {d : Location}, X <+: d →
    OnlyLoses X r₀ r → Ensures may base (OnlyLoses X r₀) (emptyDir depth d).run m r
      fun result _ _ => m = 0 → r.IsDir d → result ≠ .error .notFound
  | 0, m, r, d, _, hr => ensures_throw hr fun _ _ => by simp
  | depth + 1, m, r, d, hX, hr => by
      refine Ensures.andThen (ensures_entries hr) ?_ ?_
      · rintro entries m' r' - hr' ⟨rfl, -⟩
        refine (ensures_removeEntries ?_ hX hr').weaken fun _ _ _ _ _ h _ _ => h
        exact fun hX hr => (ensures_emptyDir hX hr).weaken fun _ _ _ _ _ _ => trivial
      · rintro reason m' r' - - ⟨-, hentries⟩ hm hdir
        obtain ⟨entries, h⟩ := hentries hm hdir
        cases h

/-! ## Paths

The path is followed for each request anew.  On a tree that has only lost nodes it leads to the same
place or to none, so that the requests are about one location. -/

section
variable {D : Location} (hp : p.EndsIn name)
  (hD : r₀.walkThrough linkLimit (startOf base p) p.way.dropLast = .ok D)
include hp hD

/-- A tree that has lost some nodes has the last name of a path in the same directory. -/
lemma eq_of_place_of_lost (hlost : Lost r₀ r) {place : Place} {last : String}
    (hplace : r.place base p = .ok place) (hlast : place.last = .name last) :
    place.dir = D ∧ last = name := by
  obtain ⟨hp', hwalk, -⟩ := walkThrough_of_place hplace hlast
  exact ⟨(hlost.walkThrough hD hwalk).symm, hp'.toEndsIn.unique hp⟩

/-- Nothing stands at a path whose last name has been lost. -/
lemma standing_of_lost (hlost : Lost r₀ r) (habsent : r.at? (D ++ [name]) = none) :
    r.standing base p = none := by
  rw [standing]
  cases hplace : r.place base p with
  | error reason => rfl
  | ok place =>
      have hlast := last_of_place hp hplace
      obtain ⟨hdir, -⟩ := eq_of_place_of_lost hp hD hlost hplace hlast
      dsimp only
      rw [World.nodeAt?_eq _ hlast, hdir, habsent]

/-- What has been removed at a path does not stand there. -/
lemma onlyLoses_erase_place (hr : OnlyLoses (D ++ [name]) r₀ r) {place : Place} {last : String}
    (hplace : r.place base p = .ok place) (hlast : place.last = .name last) :
    OnlyLoses (D ++ [name]) r₀ (r.erase place.dir last) ∧
      (r.erase place.dir last).standing base p = none := by
  obtain ⟨rfl, rfl⟩ := eq_of_place_of_lost hp hD hr.lost hplace hlast
  have hr' := hr.erase List.prefix_rfl
  exact ⟨hr', standing_of_lost hp hD hr'.lost (at?_erase [])⟩

/-! ### Requests at a path

Each of them removes what stands at the path, or changes nothing. -/

/-- Removing a file or link at a path. -/
lemma ensures_removeFile (hr : OnlyLoses (D ++ [name]) r₀ r) :
    Ensures may base (OnlyLoses (D ++ [name]) r₀) (request (.removeFile p)) n r
      fun result _ r' => (result = .ok () → r'.standing base p = none) ∧
        (n = 0 → result = .error .notFound → r' = r ∧ r.standing base p = none) := by
  refine ensures_request hr (fun w hw => ?_) fun reason m hm _ => ⟨by rintro ⟨⟩, fun h => ?_⟩
  · obtain ⟨rfl, rfl, -⟩ := hw
    rw [World.answer]
    cases hremove : w.removeFile p with
    | error reason =>
        refine ⟨hr, by rintro ⟨⟩, fun _ h => ⟨rfl, World.standing_of_removeFile ?_⟩⟩
        rw [hremove, show reason = .notFound by simpa [World.changed] using h]
    | ok w' =>
        obtain ⟨place, last, hplace, hlast, rfl⟩ := World.exists_of_removeFile hremove
        obtain ⟨hr', hnone⟩ := onlyLoses_erase_place hp hD hr hplace hlast
        exact ⟨hr', fun _ => hnone, by rintro - ⟨⟩⟩
  · rw [hm] at h
    exact absurd h (by simp)

/-- Removing an empty directory at a path. -/
lemma ensures_removeDir (hr : OnlyLoses (D ++ [name]) r₀ r) :
    Ensures may base (OnlyLoses (D ++ [name]) r₀) (request (.removeDir p)) n r
      fun result _ r' => (result = .ok () → r'.standing base p = none) ∧
        (n = 0 → result = .error .notFound → r'.standing base p = none) := by
  refine ensures_request hr (fun w hw => ?_) fun reason m hm _ => ⟨by rintro ⟨⟩, fun h => ?_⟩
  · obtain ⟨rfl, rfl, -⟩ := hw
    rw [World.answer]
    cases hremove : w.removeDir p with
    | error reason =>
        refine ⟨hr, by rintro ⟨⟩, fun _ h => World.standing_of_removeDir (w := w) ?_⟩
        rw [hremove, show reason = .notFound by simpa [World.changed] using h]
    | ok w' =>
        obtain ⟨place, last, hplace, hlast, -, rfl⟩ := World.exists_of_removeDir hremove
        obtain ⟨hr', hnone⟩ := onlyLoses_erase_place hp hD hr hplace hlast
        exact ⟨hr', fun _ => hnone, by rintro - ⟨⟩⟩
  · rw [hm] at h
    exact absurd h (by simp)

variable (hlink : p.endsWithSlash = true → ∀ target, r₀.at? (D ++ [name]) ≠ some (.link target))
include hlink

/-- A path leads to nothing, or to what stands at it. -/
lemma locate_cases :
    (r₀.standing base p = none ∧ ∃ reason, r₀.locate false base p = .error reason) ∨
      ∃ node, r₀.at? (D ++ [name]) = some node ∧
        (r₀.locate false base p = .ok (D ++ [name], node) ∨
          (∀ entries, node ≠ .dir entries) ∧
            r₀.locate false base p = .error .notADirectory) := by
  rw [standing]
  cases hplace : r₀.place base p with
  | error reason => exact .inl ⟨rfl, reason, locate_of_error hplace⟩
  | ok place =>
      have hlast := last_of_place hp hplace
      obtain ⟨hdir, -⟩ := eq_of_place_of_lost hp hD (Lost.refl _) hplace hlast
      have hnode := World.nodeAt?_eq r₀ hlast
      rw [hdir] at hnode
      rw [locate_of_place hplace (hnode ▸ hlink), hnode, location, hlast, hdir]
      cases hat : r₀.at? (D ++ [name]) with
      | none => exact .inl ⟨hnode.trans hat, .notFound, rfl⟩
      | some node =>
          refine .inr ⟨node, rfl, ?_⟩
          cases node with
          | dir entries => exact .inl rfl
          | file content | link target =>
              dsimp only
              split_ifs
              · exact .inr ⟨by simp, rfl⟩
              · exact .inl rfl

/-- What stands at a path that is to be removed. -/
lemma ensures_kind_of_removal {I : FileTree → Prop} (hr : I r₀) :
    Ensures may base I (request (.kind false p)) n r₀ fun result _ r' => r' = r₀ ∧
      (n = 0 → result = .error .notFound → r₀.standing base p = none) := by
  refine ensures_kind hr ⟨rfl, fun _ h => ?_⟩ fun reason m hm _ => ⟨rfl, fun h => ?_⟩
  · rcases locate_cases hp hD hlink with ⟨hnone, -⟩ | ⟨node, -, hfound | ⟨-, hnot⟩⟩
    · exact hnone
    · rw [find, hfound] at h
      exact absurd h (by simp [Except.map])
    · rw [find, hnot] at h
      exact absurd h (by simp [Except.map])
  · rw [hm] at h
    exact absurd h (by simp)

/-- Opening a directory to remove it. -/
lemma ensures_openDir {I : FileTree → Prop} (hr : I r₀) :
    Ensures may base I (request (.openDir p)) n r₀ fun result _ r' => r' = r₀ ∧
      (∀ X, result = .ok X → X = D ++ [name] ∧ r₀.IsDir X) ∧
      (n = 0 → result = .error .notFound → r₀.standing base p = none) := by
  refine ensures_request hr (fun w hw => ?_) fun reason m hm _ => ⟨rfl, by rintro _ ⟨⟩, fun h => ?_⟩
  · obtain ⟨rfl, rfl, -⟩ := hw
    refine ⟨hr, rfl, ?_⟩
    rw [World.answer, World.openDir]
    rcases locate_cases hp hD hlink with ⟨hnone, reason, hlocate⟩ | ⟨node, hat, hfound | ⟨-, hnot⟩⟩
    · rw [hlocate]
      exact ⟨by rintro _ ⟨⟩, fun _ _ => hnone⟩
    · rw [hfound]
      cases node with
      | dir entries =>
          refine ⟨fun X h => ?_, by rintro - ⟨⟩⟩
          obtain rfl : D ++ [name] = X := Except.ok.inj h
          exact ⟨rfl, entries, hat⟩
      | file content | link target => exact ⟨by rintro _ ⟨⟩, by rintro - ⟨⟩⟩
    · rw [hnot]
      exact ⟨by rintro _ ⟨⟩, by rintro - ⟨⟩⟩
  · rw [hm] at h
    exact absurd h (by simp)

/-! ### The whole removal

Whatever is found to stand at the path before anything is removed decides how it is removed. -/

/-- Removing a directory with all that is in it. -/
lemma ensures_removeTree {r : FileTree} (hr : r = r₀) :
    Ensures may base (OnlyLoses (D ++ [name]) r₀) (removeTree p).run n r
      fun result _ r' => n = 0 → (result = .ok () → r'.standing base p = none) ∧
        (result = .error .notFound → r' = r₀ ∧ r₀.standing base p = none) := by
  subst hr
  refine Ensures.andThen (ensures_openDir hp hD hlink (OnlyLoses.refl _ _)) ?_ ?_
  · rintro X m r' hm hr' ⟨rfl, hX, -⟩
    obtain ⟨rfl, hdir⟩ := hX X rfl
    refine Ensures.andThen (ensures_emptyDir (List.prefix_refl _) hr') ?_ ?_
    · rintro u m' r'' hm' hr'' -
      refine Ensures.tolerant ?_
      refine (ensures_removeDir hp hD hr'').weaken fun result _ _ _ _ h => ?_
      have hzero : n = 0 → m' = 0 := fun h => by simpa [h] using hm'.trans hm
      rcases result with (reason | u)
      · cases reason
        case notFound => exact fun hn => ⟨fun _ => h.2 (hzero hn) rfl, nofun⟩
        all_goals exact fun hn => ⟨nofun, nofun⟩
      · exact fun hn => ⟨fun _ => h.1 rfl, nofun⟩
    · intro reason m' r'' hm' _ h hn
      refine ⟨nofun, fun hreason => absurd hreason (h ?_ hdir)⟩
      simpa [hn] using hm
  · rintro reason m r' - - ⟨rfl, -, h⟩ hn
    exact ⟨nofun, fun hreason => ⟨rfl, h hn (by rw [Except.error.inj hreason])⟩⟩

/-- **Removing what stands at a path** loses it and what is below, and nothing else.  If nothing is
refused, nothing stands there in the end. -/
theorem ensures_removeAll :
    Ensures may base (OnlyLoses (D ++ [name]) r₀) (removeAll p).run n r₀
      fun result _ r' => n = 0 → (result = .ok () → r'.standing base p = none) ∧
        (result = .error .notFound → r' = r₀ ∧ r₀.standing base p = none) := by
  refine Ensures.andThen (ensures_kind_of_removal hp hD hlink (OnlyLoses.refl _ _)) ?_ ?_
  · rintro kind m r' hm hr' ⟨rfl, -⟩
    have hzero : n = 0 → m = 0 := fun hn => by simpa [hn] using hm
    cases kind with
    | link =>
        refine (ensures_removeFile hp hD hr').weaken fun result _ _ _ _ h hn => ?_
        exact ⟨h.1, fun hresult => h.2 (hzero hn) hresult⟩
    | file | dir =>
        exact (ensures_removeTree hp hD hlink rfl).weaken fun _ _ _ _ _ h hn => h (hzero hn)
  · rintro reason m r' - - ⟨rfl, h⟩ hn
    exact ⟨nofun, fun hreason => ⟨rfl, h hn (by rw [Except.error.inj hreason])⟩⟩

end

/-- Where nothing stands, nothing is removed. -/
lemma ensures_removeAll_of_nothing {I : FileTree → Prop} (hr : I r)
    (hnone : r.standing base p = none) :
    Ensures may base I (removeAll p).run n r fun result _ r' => r' = r ∧ result ≠ .ok () := by
  have hfind : ∃ reason, (r.find false base p).map kind = .error reason := by
    rw [standing] at hnone
    rw [find]
    cases hplace : r.place base p with
    | error reason => exact ⟨reason, by rw [locate_of_error hplace]; rfl⟩
    | ok place =>
        rw [hplace] at hnone
        dsimp only at hnone
        refine ⟨.notFound, ?_⟩
        rw [locate_of_place hplace (by simp [hnone]), hnone]
        rfl
  refine Ensures.andThen (ensures_kind (Q := fun result _ r' => r' = r ∧
    ∃ reason, result = .error reason) hr ⟨rfl, hfind⟩ fun reason _ _ _ => ⟨rfl, reason, rfl⟩) ?_ ?_
  · rintro kind m r' - - ⟨-, reason, h⟩
    cases h
  · rintro reason m r' - - ⟨rfl, -⟩
    exact ⟨rfl, by simp⟩

end

end Script

end WorkerGen
