/-!
# Dictionaries with sorted keys

A dictionary is a list of entries whose keys strictly increase, so that two dictionaries with the
same entries are equal and the order in which they were filled cannot be seen.  It holds what is
written in key order: HTTP headers, variables and environments.

The key order is the order of texts by code points, which for UTF-8 is also the order by bytes.
-/

namespace WorkerGen

/-- Puts an entry into a list of entries at its place in key order, in place of an entry with the
same key. -/
def insertSorted {α : Type} (key : String) (value : α) :
    List (String × α) → List (String × α)
  | [] => [(key, value)]
  | (k, v) :: rest =>
    if key < k then (key, value) :: (k, v) :: rest
    else if key = k then (key, value) :: rest
    else (k, v) :: insertSorted key value rest

/-- The keys of a list after an insertion are its keys and the new one. -/
theorem mem_insertSorted {α : Type} {key : String} {value : α} {e : String × α} :
    ∀ {entries : List (String × α)}, e ∈ insertSorted key value entries →
      e = (key, value) ∨ e ∈ entries
  | [], h => by simpa [insertSorted] using h
  | (k, v) :: rest, h => by
    unfold insertSorted at h
    split at h
    · simpa using h
    · split at h
      · rcases List.mem_cons.1 h with h | h
        · exact .inl h
        · exact .inr (List.mem_cons_of_mem _ h)
      · rcases List.mem_cons.1 h with h | h
        · exact .inr (h ▸ List.mem_cons_self)
        · rcases mem_insertSorted h with h | h
          · exact .inl h
          · exact .inr (List.mem_cons_of_mem _ h)

/-- Keys that strictly increase still do so after an insertion. -/
theorem pairwise_insertSorted {α : Type} (key : String) (value : α) :
    ∀ {entries : List (String × α)}, entries.Pairwise (fun a b => a.1 < b.1) →
      (insertSorted key value entries).Pairwise (fun a b => a.1 < b.1)
  | [], _ => by simp [insertSorted]
  | (k, v) :: rest, h => by
    obtain ⟨hk, hrest⟩ := List.pairwise_cons.1 h
    unfold insertSorted
    split
    case isTrue hlt =>
      refine List.pairwise_cons.2 ⟨fun e he => ?_, h⟩
      rcases List.mem_cons.1 he with he | he
      · exact he ▸ hlt
      · exact String.lt_trans hlt (hk e he)
    case isFalse hlt =>
      split
      case isTrue heq =>
        subst heq
        exact List.pairwise_cons.2 ⟨hk, hrest⟩
      case isFalse hne =>
        have hkey : k < key := by
          rcases Decidable.em (k < key) with h | h
          · exact h
          · exact absurd (String.le_antisymm h hlt) hne
        refine List.pairwise_cons.2 ⟨fun e he => ?_, pairwise_insertSorted key value hrest⟩
        rcases mem_insertSorted he with he | he
        · exact he ▸ hkey
        · exact hk e he

/-- Entries in strictly increasing order of their keys. -/
structure Dictionary (α : Type) where
  entries : List (String × α)
  sorted : entries.Pairwise (fun a b => a.1 < b.1)
deriving DecidableEq

namespace Dictionary

variable {α : Type}

/-- The dictionary without entries. -/
def empty : Dictionary α := ⟨[], .nil⟩

instance : Inhabited (Dictionary α) := ⟨empty⟩

/-- Sets a key; the value it had is forgotten. -/
def insert (d : Dictionary α) (key : String) (value : α) : Dictionary α :=
  ⟨insertSorted key value d.entries, pairwise_insertSorted key value d.sorted⟩

/-- The dictionary of a list of entries, of which the last for a key counts. -/
def ofList (entries : List (String × α)) : Dictionary α :=
  entries.foldl (fun d e => d.insert e.1 e.2) empty

/-- The value of a key. -/
def get? (d : Dictionary α) (key : String) : Option α := d.entries.lookup key

/-- The entries of the first dictionary overridden by those of the second. -/
def union (d overrides : Dictionary α) : Dictionary α :=
  overrides.entries.foldl (fun d e => d.insert e.1 e.2) d

end Dictionary

end WorkerGen
