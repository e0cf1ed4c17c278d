/-!
# Listings

A listing holds values under distinct keys and keeps the order in which the keys first came.  It
holds what an API description declares in an order of its own: its paths, and the methods of a
path.  The members of a JSON object are filled in the same way.
-/

namespace WorkerGen

/-- Sets a key in a list of entries.  A key that is there already keeps its place and gets the new
value; a new one comes last. -/
def setEntry {κ α : Type} [DecidableEq κ] (key : κ) (value : α) : List (κ × α) → List (κ × α)
  | [] => [(key, value)]
  | (k, v) :: rest =>
    if k = key then (k, value) :: rest else (k, v) :: setEntry key value rest

/-- The keys of a list after a key is set are its keys and that one. -/
theorem mem_keys_setEntry {κ α : Type} [DecidableEq κ] {key k : κ} {value : α} :
    ∀ {entries : List (κ × α)}, k ∈ (setEntry key value entries).map (·.1) →
      k = key ∨ k ∈ entries.map (·.1)
  | [], h => by simpa [setEntry] using h
  | (l, v) :: rest, h => by
    unfold setEntry at h
    split at h
    · exact .inr h
    · rcases List.mem_cons.1 h with h | h
      · exact .inr (h ▸ List.mem_cons_self)
      · rcases mem_keys_setEntry h with h | h
        · exact .inl h
        · exact .inr (List.mem_cons_of_mem _ h)

/-- Distinct keys stay distinct when a key is set. -/
theorem nodup_keys_setEntry {κ α : Type} [DecidableEq κ] (key : κ) (value : α) :
    ∀ {entries : List (κ × α)}, (entries.map (·.1)).Nodup →
      ((setEntry key value entries).map (·.1)).Nodup
  | [], _ => by simp [setEntry]
  | (k, v) :: rest, h => by
    obtain ⟨hk, hrest⟩ := List.nodup_cons.1 h
    unfold setEntry
    split
    case isTrue => exact List.nodup_cons.2 ⟨hk, hrest⟩
    case isFalse hne =>
      refine List.nodup_cons.2 ⟨fun hmem => ?_, nodup_keys_setEntry key value hrest⟩
      rcases mem_keys_setEntry hmem with heq | hmem
      · exact hne heq
      · exact hk hmem

/-- Values under distinct keys, in the order in which the keys first came. -/
structure Listing (κ α : Type) where
  entries : List (κ × α)
  distinct : (entries.map (·.1)).Nodup
deriving DecidableEq

namespace Listing

variable {κ α : Type}

/-- The listing without entries. -/
def empty : Listing κ α := ⟨[], .nil⟩

instance : Inhabited (Listing κ α) := ⟨empty⟩

variable [DecidableEq κ]

/-- Sets a key; a new one comes last. -/
def set (l : Listing κ α) (key : κ) (value : α) : Listing κ α :=
  ⟨setEntry key value l.entries, nodup_keys_setEntry key value l.distinct⟩

/-- The value of a key. -/
def get? (l : Listing κ α) (key : κ) : Option α := l.entries.lookup key

/-- Whether a key is there. -/
def contains (l : Listing κ α) (key : κ) : Bool := l.entries.any (·.1 == key)

end Listing

end WorkerGen
