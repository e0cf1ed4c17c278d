import Mathlib
import WorkerGen.Listing

/-!
# Setting keys

A key that is new comes last (`setEntry_of_notMem`), and what holds of all entries and of a new one
still holds of all when that is set (`forall_mem_setEntry`).  Listings with the same entries are
equal.
-/

namespace WorkerGen

section
variable {κ α : Type} [DecidableEq κ] {key : κ} {value : α}

/-- A key that is new comes last. -/
lemma setEntry_of_notMem : ∀ {entries : List (κ × α)}, key ∉ entries.map (·.1) →
    setEntry key value entries = entries ++ [(key, value)]
  | [], _ => rfl
  | (k, v) :: rest, h => by
      rw [List.map_cons, List.mem_cons, not_or] at h
      rw [setEntry, if_neg fun heq => h.1 heq.symm, setEntry_of_notMem h.2, List.cons_append]

/-- What holds of the entries and of a new one holds of all when that is set. -/
lemma forall_mem_setEntry {p : κ × α → Prop} (hnew : p (key, value)) :
    ∀ {entries : List (κ × α)}, (∀ e ∈ entries, p e) → ∀ e ∈ setEntry key value entries, p e
  | [], _ => by simpa [setEntry] using hnew
  | (k, v) :: rest, h => by
      obtain ⟨hhead, hrest⟩ := List.forall_mem_cons.mp h
      rw [setEntry]
      split_ifs with heq
      · subst heq
        exact List.forall_mem_cons.mpr ⟨hnew, hrest⟩
      · exact List.forall_mem_cons.mpr ⟨hhead, forall_mem_setEntry hnew hrest⟩

end

/-- Listings with the same entries are equal. -/
lemma Listing.eq_of_entries {κ α : Type} {l l' : Listing κ α} (h : l.entries = l'.entries) :
    l = l' := (Listing.mk.injEq _ _ _ _).mpr h

end WorkerGen
