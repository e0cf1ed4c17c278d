import Mathlib

/-!
# First faults

A check goes through a list, judges every element by what stands before it, and ends at the first
element that is at fault.  `FirstFault` says which fault that is without going through the list, so
a check that keeps some state of its own is right if it reports exactly the first fault.

**Steps.**  `firstFault_cons` is what one step of a check does, and `firstFault_congr` changes what
the check remembers of the elements before.

**Success.**  There is no first fault exactly if no element is at fault
(`forall_not_firstFault_iff`); for a repeated key that means that no key is repeated
(`nodup_map_iff`).
-/

namespace WorkerGen

variable {α β ε κ : Type}

/-! ## Results -/

lemma except_bind_eq_ok {x : Except ε α} {f : α → Except ε β} {b : β} :
    (x >>= f) = .ok b ↔ ∃ a, x = .ok a ∧ f a = .ok b := by
  cases x <;> simp [bind, Except.bind]

lemma except_map_eq_ok {x : Except ε α} {f : α → β} {b : β} :
    x.map f = .ok b ↔ ∃ a, x = .ok a ∧ f a = b := by
  cases x <;> simp [Except.map]

/-! ## Lists of checks

A fault is a relation between the elements before, an element, and an error.  Nothing is asked of
it, so that a check may remember what it likes. -/

/-- The first fault of a list, if `Fault before a e` says that `a` is at fault with `e` where it
stands behind `before`. -/
def FirstFault (Fault : List α → α → ε → Prop) (s : List α) (e : ε) : Prop :=
  ∃ before a after, s = before ++ a :: after ∧ Fault before a e ∧
    ∀ earlier b later, before = earlier ++ b :: later → ∀ e', ¬Fault earlier b e'

variable {Fault Fault' : List α → α → ε → Prop} {a : α} {s : List α} {e : ε}

lemma not_firstFault_nil : ¬FirstFault Fault [] e := by
  rintro ⟨before, a, after, hs, -⟩
  simp at hs

/-- A list has the fault of its first element, or else that of the others behind it. -/
lemma firstFault_cons : FirstFault Fault (a :: s) e ↔
    Fault [] a e ∨ (∀ e', ¬Fault [] a e') ∧ FirstFault (fun before => Fault (a :: before)) s e := by
  constructor
  · rintro ⟨before, b, after, hs, hfault, hnone⟩
    cases before with
    | nil =>
        obtain ⟨rfl, rfl⟩ := List.cons.inj hs
        exact Or.inl hfault
    | cons c before =>
        obtain ⟨rfl, rfl⟩ := List.cons.inj hs
        refine Or.inr ⟨hnone [] a before rfl, before, b, after, rfl, hfault, ?_⟩
        intro earlier d later hbefore
        exact hnone (a :: earlier) d later (by rw [hbefore, List.cons_append])
  · rintro (hfault | ⟨hfirst, before, b, after, rfl, hfault, hnone⟩)
    · exact ⟨[], a, s, rfl, hfault, by simp⟩
    · refine ⟨a :: before, b, after, rfl, hfault, ?_⟩
      intro earlier d later hbefore
      cases earlier with
      | nil =>
          obtain ⟨rfl, rfl⟩ := List.cons.inj hbefore
          exact hfirst
      | cons c earlier =>
          obtain ⟨rfl, rfl⟩ := List.cons.inj hbefore
          exact hnone earlier d later rfl

lemma firstFault_congr (h : ∀ before a e, Fault before a e ↔ Fault' before a e) :
    FirstFault Fault s e ↔ FirstFault Fault' s e := by
  have heq : Fault = Fault' := by
    funext before a e
    exact propext (h before a e)
  rw [heq]

/-- **There is no first fault exactly if no element is at fault** with those before it. -/
theorem forall_not_firstFault_iff : (∀ e, ¬FirstFault Fault s e) ↔
    ∀ before a after, s = before ++ a :: after → ∀ e, ¬Fault before a e := by
  constructor
  · induction s generalizing Fault with
    | nil =>
        intro _ before a after hs
        simp at hs
    | cons b s ih =>
        intro hnone before a after hs
        have hfirst : ∀ e, ¬Fault [] b e := by
          intro e hfault
          exact hnone e (firstFault_cons.mpr (.inl hfault))
        cases before with
        | nil =>
            obtain ⟨rfl, rfl⟩ := List.cons.inj hs
            exact hfirst
        | cons c before =>
            obtain ⟨rfl, hrest⟩ := List.cons.inj hs
            have hlater : ∀ e, ¬FirstFault (fun before => Fault (b :: before)) s e := by
              intro e hlater
              exact hnone e (firstFault_cons.mpr (.inr ⟨hfirst, hlater⟩))
            exact ih hlater before a after hrest
  · rintro hnone e ⟨before, a, after, hs, hfault, -⟩
    exact hnone before a after hs e hfault

/-- A last element repeats no key if the others have other keys. -/
lemma nodup_map_append_singleton {key : α → κ} : ((s ++ [a]).map key).Nodup ↔
    (s.map key).Nodup ∧ ∀ b ∈ s, key b ≠ key a := by
  rw [List.map_append, List.map_singleton, List.nodup_append]
  simp

/-- No key is repeated exactly if every element has another key than those before it. -/
lemma nodup_map_iff {key : α → κ} : (s.map key).Nodup ↔
    ∀ before a after, s = before ++ a :: after → ∀ b ∈ before, key b ≠ key a := by
  constructor
  · rintro hnodup before a after rfl b hb hkey
    rw [List.map_append, List.map_cons, List.nodup_append] at hnodup
    exact hnodup.2.2 (key b) (List.mem_map_of_mem hb) (key a) List.mem_cons_self hkey
  · intro hsplit
    induction s using List.reverseRecOn with
    | nil => simp
    | append_singleton s a ih =>
        have hrest := ih fun before b after hs => hsplit before b (after ++ [a]) (by simp [hs])
        exact nodup_map_append_singleton.mpr ⟨hrest, hsplit s a [] rfl⟩

/-- A check of each element by itself reports the first error. -/
lemma forM_eq_error_iff {check : α → Except ε Unit} : s.forM check = .error e ↔
    FirstFault (fun _ a e => check a = .error e) s e := by
  induction s with
  | nil => simp [not_firstFault_nil, pure, Except.pure]
  | cons a s ih =>
      have hstep : (a :: s).forM check = check a >>= fun _ => s.forM check := rfl
      rw [firstFault_cons, ← ih, hstep]
      cases hcheck : check a with
      | error e' => simp [bind, Except.bind]
      | ok _ => simp [bind, Except.bind]

end WorkerGen
