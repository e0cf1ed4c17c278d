import Mathlib
import WorkerGen.Dictionary

/-!
# Looking up what was put into a dictionary

An insertion changes the value of its key and of no other (`Dictionary.get?_insert`).  Of a list of
entries whose keys are distinct, a dictionary made from it gives the values that the list gives
(`Dictionary.get?_ofList`), and one overridden by it gives those first (`Dictionary.get?_union`).
A dictionary is made from its own entries (`Dictionary.ofList_entries`).
-/

namespace WorkerGen

/-! ## Insertions

An insertion goes through the entries up to the place of its key.  What is looked up afterwards does
not depend on where that is. -/

lemma lookup_insertSorted {α : Type} (key : String) (value : α) (k : String) :
    ∀ entries : List (String × α), (insertSorted key value entries).lookup k
      = if k = key then some value else entries.lookup k
  | [] => by
      by_cases h : k = key
      · simp [insertSorted, h]
      · simp [insertSorted, h, List.lookup_cons, beq_eq_false_iff_ne.mpr h]
  | (k', v) :: rest => by
      have ih := lookup_insertSorted key value k rest
      by_cases h : k = key
      · subst h
        rw [if_pos rfl] at ih ⊢
        rw [insertSorted]
        split_ifs with hlt heq
        · rw [List.lookup_cons_self]
        · rw [List.lookup_cons_self]
        · rw [List.lookup_cons, beq_eq_false_iff_ne.mpr heq, ih]
      · have hne : (k == key) = false := beq_eq_false_iff_ne.mpr h
        rw [if_neg h] at ih ⊢
        rw [insertSorted]
        split_ifs with hlt heq
        · rw [List.lookup_cons, hne]
        · rw [List.lookup_cons, List.lookup_cons, ← heq, hne]
        · rw [List.lookup_cons, List.lookup_cons, ih]

/-- A key behind all others comes last. -/
lemma insertSorted_of_lt {α : Type} {key : String} {value : α} : ∀ {entries : List (String × α)},
    (∀ e ∈ entries, e.1 < key) → insertSorted key value entries = entries ++ [(key, value)]
  | [], _ => rfl
  | (k, v) :: rest, h => by
      obtain ⟨hk, hrest⟩ := List.forall_mem_cons.mp h
      have hne : key ≠ k := fun heq => String.lt_irrefl key (heq ▸ hk)
      rw [insertSorted, if_neg (String.lt_asymm hk), if_neg hne, insertSorted_of_lt hrest,
        List.cons_append]

/-- Where keys are distinct, what is found under a key is what stands there. -/
lemma lookup_eq_some_iff_mem {α : Type} {key : String} {value : α} :
    ∀ {entries : List (String × α)}, (entries.map (·.1)).Nodup →
      (entries.lookup key = some value ↔ (key, value) ∈ entries)
  | [], _ => by simp
  | (k, v) :: rest, h => by
      obtain ⟨hk, hrest⟩ := List.nodup_cons.mp h
      have hother : ∀ v', (k, v') ∉ rest := fun v' hmem => hk (List.mem_map.mpr ⟨_, hmem, rfl⟩)
      by_cases hkey : key = k
      · subst hkey
        simp [hother, eq_comm]
      · rw [List.lookup_cons, beq_eq_false_iff_ne.mpr hkey, lookup_eq_some_iff_mem hrest]
        simp [hkey]

namespace Dictionary

variable {α : Type}

lemma get?_insert (d : Dictionary α) (key : String) (value : α) (k : String) :
    (d.insert key value).get? k = if k = key then some value else d.get? k :=
  lookup_insertSorted key value k d.entries

/-- Keys that are not put in keep their values. -/
lemma get?_foldl_insert : ∀ {entries : List (String × α)} (d : Dictionary α) (k : String),
    (entries.map (·.1)).Nodup →
      (entries.foldl (fun d e => d.insert e.1 e.2) d).get? k = (entries.lookup k).or (d.get? k)
  | [], _, _, _ => rfl
  | (key, value) :: rest, d, k, h => by
      obtain ⟨hkey, hrest⟩ := List.nodup_cons.mp h
      rw [List.foldl_cons, get?_foldl_insert _ k hrest, get?_insert, List.lookup_cons]
      by_cases hk : k = key
      · subst hk
        have hnone : rest.lookup k = none := by
          rw [List.lookup_eq_none_iff]
          intro e he
          simpa using fun heq : k = e.1 => hkey (List.mem_map.mpr ⟨e, he, heq.symm⟩)
        simp [hnone]
      · rw [if_neg hk, beq_eq_false_iff_ne.mpr hk]

theorem get?_ofList {entries : List (String × α)} (h : (entries.map (·.1)).Nodup) (k : String) :
    (ofList entries).get? k = entries.lookup k := by
  rw [ofList, get?_foldl_insert empty k h]
  exact Option.or_none

lemma entries_foldl_insert : ∀ {entries : List (String × α)} {d : Dictionary α},
    (d.entries ++ entries).Pairwise (fun a b => a.1 < b.1) →
      (entries.foldl (fun d e => d.insert e.1 e.2) d).entries = d.entries ++ entries
  | [], d, _ => (List.append_nil d.entries).symm
  | e :: rest, d, h => by
      have hlast : ∀ a ∈ d.entries, a.1 < e.1 := fun a ha =>
        (List.pairwise_append.mp h).2.2 a ha e List.mem_cons_self
      have hinsert : (d.insert e.1 e.2).entries = d.entries ++ [e] := insertSorted_of_lt hlast
      rw [List.foldl_cons, entries_foldl_insert (by rw [hinsert]; simpa using h), hinsert]
      simp

/-! ## Dictionaries from lists

The entries of a dictionary are in order, so that inserting them one by one puts each behind all the
others. -/

/-- **A dictionary is the one of its entries.** -/
theorem ofList_entries (d : Dictionary α) : ofList d.entries = d := by
  have hentries : (ofList d.entries).entries = d.entries := entries_foldl_insert d.sorted
  exact (Dictionary.mk.injEq _ _ _ _).mpr hentries

lemma nodup_keys (d : Dictionary α) : (d.entries.map (·.1)).Nodup :=
  List.pairwise_map.mpr (d.sorted.imp String.ne_of_lt)

theorem get?_union (d overrides : Dictionary α) (k : String) :
    (d.union overrides).get? k = (overrides.get? k).or (d.get? k) :=
  get?_foldl_insert d k overrides.nodup_keys

end Dictionary

end WorkerGen
