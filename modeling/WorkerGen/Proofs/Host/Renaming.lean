import Mathlib
import WorkerGen.Proofs.Host.Runs

/-!
# Renaming

What a request to rename a node does to the tree, seen from the places that its paths lead to: a
node is taken out of one directory and put into another (`Moved`).  The node comes with all that is
below it, and a directory is not moved into itself, so that neither of the two places is below the
other.  What stands at the new place and what is gone from the old are read off that.

* `ensures_rename` — a rename moves a node, changes nothing or fails, whatever the places are.
* `ensures_rename_free` — a directory can be moved to where there is nothing, and if that is not
  refused it is moved.
* `ensures_rename_unreached` — what is not reached is not renamed.

`Moved.sameOff` is what a longer run needs: all that has changed is at the two places and below.
-/

namespace WorkerGen

namespace FileTree

/-! ## Moved nodes

Taking a node away and putting it back elsewhere are two changes of the tree.  That the places are
apart lets each of them be looked at without the other. -/

/-- Whether a tree comes from another by moving a node between two places. -/
structure Moved (r : FileTree) (d : Location) (name : String) (d' : Location) (name' : String)
    (node : FileTree) (r' : FileTree) : Prop where
  node_at : r.at? (d ++ [name]) = some node
  isDir : r.IsDir d'
  not_below : ¬ d ++ [name] <+: d'
  not_above : ¬ d' ++ [name'] <+: d
  ne : d ++ [name] ≠ d' ++ [name']
  eq : r' = (r.erase d name).put d' name' node

namespace Moved

variable {r r' node : FileTree} {d d' l : Location} {name name' : String}

lemma not_prefix (h : r.Moved d name d' name' node r') : ¬ d ++ [name] <+: d' ++ [name'] := by
  rw [List.prefix_concat_iff, not_or]
  exact ⟨h.ne, h.not_below⟩

lemma not_prefix' (h : r.Moved d name d' name' node r') : ¬ d' ++ [name'] <+: d ++ [name] := by
  rw [List.prefix_concat_iff, not_or]
  exact ⟨h.ne.symm, h.not_above⟩

lemma isDir_erase (h : r.Moved d name d' name' node r') : (r.erase d name).IsDir d' :=
  ((SameOff.erase r d name).isDir (by simpa using h.not_below)).mpr h.isDir

lemma sameOff (h : r.Moved d name d' name' node r') :
    SameOff [d ++ [name], d' ++ [name']] r r' := by
  rw [h.eq]
  exact ((SameOff.erase r d name).widen (by simp)).trans
    ((SameOff.put _ d' name' node).widen (by simp))

/-- The node stands at its new place. -/
lemma at?_new (h : r.Moved d name d' name' node r') : r'.at? (d' ++ [name']) = some node := by
  rw [h.eq, at?_put_self h.isDir_erase]

/-- Nothing stands at its old place. -/
lemma at?_old (h : r.Moved d name d' name' node r') : r'.at? (d ++ [name]) = none := by
  rw [h.eq, (SameOff.put _ d' name' node).at? _ (by simpa using ⟨h.not_prefix', h.not_prefix⟩)]
  exact at?_erase []

end Moved

end FileTree

namespace Script

open FileTree

section
variable {may : Request → Prop} {base : Location} {I : FileTree → Prop} {n : ℕ∞} {r : FileTree}
  {source target : Path}

/-! ## The request

The rules are about paths that lead to names.  Others are never renamed, nor is anything to them. -/

/-- A rename moves a node between the places of its paths, changes nothing, or fails. -/
lemma ensures_rename {Q : Except IoFault Unit → ℕ∞ → FileTree → Prop} (hr : I r)
    (hstart : r.IsDir (startOf base target))
    (hmoved : ∀ d name d' name' node r', source.IsLegal name → target.IsLegal name' →
      r.walkThrough linkLimit (startOf base source) source.way.dropLast = .ok d →
      r.Reaches (startOf base target) target.way.dropLast d' → r.Moved d name d' name' node r' →
      (node.kind = .dir ∨ source.endsWithSlash = false ∧ target.endsWithSlash = false) →
      World.mayReplace node (r.at? (d' ++ [name'])) = .ok () → I r' ∧ Q (.ok ()) n r')
    (hsame : ∀ d name, r.walkThrough linkLimit (startOf base source) source.way.dropLast = .ok d →
      r.Reaches (startOf base target) target.way.dropLast d → source.IsLegal name →
      target.IsLegal name → Q (.ok ()) n r)
    (herror : ∀ reason m, m ≤ n → Q (.error reason) m r) :
    Ensures may base I (request (.rename source target)) n r Q := by
  refine ensures_request hr (fun w hw => ?_) fun reason m hm _ => herror reason m ?_
  · obtain ⟨rfl, rfl, -⟩ := hw
    rw [World.answer]
    cases hrename : w.rename source target with
    | error reason => exact ⟨hr, herror reason n le_rfl⟩
    | ok w' =>
        obtain ⟨old, new, oldName, newName, node, h, hcases⟩ := World.exists_of_rename hrename
        obtain ⟨hsource, hold, hslash⟩ := walkThrough_of_place h.old_place h.old_last
        obtain ⟨htarget, hnew, hslash'⟩ := walkThrough_of_place h.new_place h.new_last
        rcases hcases with ⟨heq, rfl⟩ | ⟨hne, hmay, rfl⟩
        · obtain ⟨hdir, hname⟩ := List.append_inj' heq rfl
          obtain rfl : oldName = newName := by simpa using hname
          rw [← hdir] at hnew
          exact ⟨hr, hsame old.dir oldName hold ⟨hstart, hnew⟩ hsource htarget⟩
        · refine hmoved old.dir oldName new.dir newName node _ hsource htarget hold ⟨hstart, hnew⟩
            ⟨h.node_at, (Reaches.mk hstart hnew).isDir, h.not_below, h.not_above, hne, rfl⟩ ?_ hmay
          rw [← hslash, ← hslash']
          exact h.slash
  · rw [hm]
    exact le_self_add

/-- What is not reached is not renamed. -/
lemma ensures_rename_unreached {Q : Except IoFault Unit → ℕ∞ → FileTree → Prop} (hr : I r)
    (hno : ∀ d, r.walkThrough linkLimit (startOf base source) source.way.dropLast ≠ .ok d)
    (herror : ∀ reason m, m ≤ n → Q (.error reason) m r) :
    Ensures may base I (request (.rename source target)) n r Q := by
  refine ensures_request hr (fun w hw => ?_) fun reason m hm _ => herror reason m ?_
  · obtain ⟨rfl, rfl, -⟩ := hw
    rw [World.answer]
    cases hrename : w.rename source target with
    | error reason => exact ⟨hr, herror reason n le_rfl⟩
    | ok w' =>
        obtain ⟨old, new, oldName, newName, node, h, -⟩ := World.exists_of_rename hrename
        exact absurd (walkThrough_of_place h.old_place h.old_last).2.1 (hno old.dir)
  · rw [hm]
    exact le_self_add

/-- A node can be moved to where there is nothing. -/
lemma ensures_rename_free {Q : Except IoFault Unit → ℕ∞ → FileTree → Prop}
    {d d' : Location} {name name' : String} {node r' : FileTree} (hr : I r)
    (hsource : source.IsLegal name) (htarget : target.IsLegal name')
    (hd : r.Reaches (startOf base source) source.way.dropLast d)
    (hd' : r.Reaches (startOf base target) target.way.dropLast d')
    (hslash : node.kind = .dir ∨ source.endsWithSlash = false ∧ target.endsWithSlash = false)
    (hfree : r.at? (d' ++ [name']) = none) (hmoved : r.Moved d name d' name' node r')
    (hpost : I r' ∧ Q (.ok ()) n r')
    (hrefused : ∀ reason m, n = m + 1 → may (.rename source target) → Q (.error reason) m r) :
    Ensures may base I (request (.rename source target)) n r Q := by
  refine ensures_request hr (fun w hw => ?_) hrefused
  obtain ⟨rfl, rfl, -⟩ := hw
  have hrename := World.rename_eq_ok (w := w) ⟨place_of_reaches hsource hd,
    place_of_reaches htarget hd', rfl, rfl, hmoved.node_at, hslash, hmoved.not_below,
    hmoved.not_above⟩ hsource.check htarget.check hmoved.ne hfree
  rw [World.answer, hrename]
  have hfiles := hmoved.eq
  subst hfiles
  exact hpost

end

end Script

end WorkerGen
