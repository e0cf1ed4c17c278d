import Mathlib
import WorkerGen.Proofs.Build.Atomicity

/-!
# Staged builds that succeed

A staged build that succeeds stands at its output, whatever is refused on the way and whatever the
output is called (`hasBuild_of_written`).  A path that does not end in a name, as `.` and `a/..` do
not, is never replaced: nothing is renamed to it.
-/

namespace WorkerGen

namespace Build

open FileTree Script

section
variable {may : Request → Prop} {base : Location} {source target output : Path} {r : FileTree}
  {n : ℕ∞} {files : List OutputFile}

/-! ## Outputs without a name

A path such as `.` can be followed, but nothing can be renamed to it, so that the swap fails at its
first rename and everything is put back. -/

/-- What fails after a step makes the whole fail. -/
lemma ensures_rest_fails {α ε : Type} {x : ExceptT ε Script α} {f : α → ExceptT ε Script Unit}
    (h : ∀ a m r', Ensures may base (fun _ => True) (f a).run m r' fun result _ _ =>
      result ≠ .ok ()) :
    Ensures may base (fun _ => True) (x >>= f).run n r fun result _ _ => result ≠ .ok () :=
  Ensures.andThen Ensures.trivial (fun a m r' _ _ _ => h a m r') fun e _ _ _ _ _ => by simp

/-- Nothing is renamed from or to a path that does not end in a name. -/
lemma ensures_rename_unnamed
    (hno : (∀ name, ¬ source.EndsIn name) ∨ ∀ name, ¬ target.EndsIn name) :
    Ensures may base (fun _ => True) (request (.rename source target)) n r
      fun result _ _ => result ≠ .ok () := by
  refine ensures_request trivial (fun w _ => ?_) fun _ _ _ _ => by simp
  rw [World.answer]
  cases hrename : w.rename source target with
  | error reason => exact ⟨trivial, by simp [World.changed]⟩
  | ok w' =>
      obtain ⟨old, new, oldName, newName, node, h, -⟩ := World.exists_of_rename hrename
      have hsource := (walkThrough_of_place h.old_place h.old_last).1.toEndsIn
      have htarget := (walkThrough_of_place h.new_place h.new_last).1.toEndsIn
      rcases hno with hno | hno
      · exact absurd hsource (hno oldName)
      · exact absurd htarget (hno newName)

variable (hno : ∀ name, ¬ output.EndsIn name)
include hno

/-- Staging for such an output fails. -/
lemma ensures_stage_unnamed (staging : Path) :
    Ensures may base (fun _ => True) (stage staging output files).run n r
      fun result _ _ => result ≠ .ok () := by
  refine ensures_rest_fails fun _ _ _ => ensures_rest_fails fun _ m r' => ?_
  have hswap : Ensures may base (fun _ => True)
      (swap (staging.join "out") output (staging.join "previous")).run m r'
      fun result _ _ => result ≠ .ok () :=
    ensures_swap_fails (ensures_rename_unnamed (.inl hno)) (ensures_rename_unnamed (.inr hno))
  exact hswap.andThen (fun _ _ _ _ _ hne => absurd rfl hne) fun _ _ _ _ _ _ => by simp

/-- **A staged build fails** if its output does not end in a name. -/
theorem ensures_writeStaged_unnamed :
    Ensures may base (fun _ => True) (writeStaged output files).run n r
      fun result _ _ => result ≠ .ok () := by
  refine ensures_rest_fails fun _ _ _ => ensures_rest_fails fun staging _ _ => ?_
  refine Ensures.liftThen (ensures_stage_unnamed hno staging) fun result m r' _ _ hne => ?_
  cases result with
  | ok u => exact absurd rfl hne
  | error e => exact ensures_rest_fails fun _ _ _ => ensures_throw trivial (by simp)

end

/-- **A staged build that succeeds stands at its output**, whatever is refused on the way. -/
theorem hasBuild_of_written {w : World} {output : Path} {files : List OutputFile}
    {refuses : ℕ → Option IoFault} {index : ℕ} (hw : w.IsSound)
    (hinside : ∀ f ∈ files, f.path.IsInside)
    (hok : ((write .staged output files).run.runRefusing refuses index w).1 = .ok ()) :
    ((write .staged output files).run.runRefusing refuses index w).2.HasBuild output files := by
  have hwrite : write .staged output files = writeStaged output files := rfl
  rw [hwrite] at hok ⊢
  have hmay : ∀ q ∈ refused refuses index (writeStaged output files).run w, True :=
    fun _ _ => trivial
  by_cases hname : ∃ name, output.EndsIn name
  · obtain ⟨name, hends⟩ := hname
    have hensures : Ensures (fun _ => True) w.workDir (fun _ => True) (writeStaged output files).run
        ⊤ w.files _ := ensures_writeStaged_build hw.names hends hinside (hw.isDir_start output)
    obtain ⟨hon, -, m, hpost⟩ := hensures.runRefusing hw.isOn hmay le_top
    obtain ⟨staging, D, s, r₁, hstaged⟩ := hpost hok
    rw [World.HasBuild, World.standing, hon.workDir]
    exact hstaged.built
  · have hensures : Ensures (fun _ => True) w.workDir (fun _ => True) (writeStaged output files).run
        ⊤ w.files _ := ensures_writeStaged_unnamed fun name hends => hname ⟨name, hends⟩
    obtain ⟨-, -, m, hne⟩ := hensures.runRefusing hw.isOn hmay le_top
    exact absurd hok hne

end Build

end WorkerGen
