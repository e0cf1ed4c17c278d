import Mathlib
import WorkerGen.Data.Format
import WorkerGen.Proofs.FirstFault
import WorkerGen.Proofs.Listing

/-!
# Buffered values and JSON

A JSON value that comes from a buffered value names no member of an object twice
(`isRegular_toJson`), and buffering such a value loses nothing (`toJson_ofJson`).  So the values in
a description are as they would be had they been read from JSON, and it makes no difference on which
of the two ways a description has come.

Both are shown by recursion on the value, with a part each for values, for the items of an array and
for the members of an object.
-/

namespace WorkerGen

/-! ## Regular values -/

namespace Json

mutual

/-- Whether no object in a value has two members of one name. -/
def IsRegular : Json → Prop
  | .null | .bool _ | .number _ | .string _ => True
  | .array items => AreRegular items
  | .object members => (members.map (·.1)).Nodup ∧ HaveRegular members

/-- Whether all items are regular. -/
def AreRegular : List Json → Prop
  | [] => True
  | v :: rest => IsRegular v ∧ AreRegular rest

/-- Whether the values of all members are regular. -/
def HaveRegular : List (String × Json) → Prop
  | [] => True
  | (_, v) :: rest => IsRegular v ∧ HaveRegular rest

end

lemma areRegular_iff : ∀ {items : List Json}, AreRegular items ↔ ∀ v ∈ items, v.IsRegular
  | [] => by simp [AreRegular]
  | v :: rest => by rw [AreRegular, areRegular_iff, List.forall_mem_cons]

lemma haveRegular_iff : ∀ {members : List (String × Json)},
    HaveRegular members ↔ ∀ e ∈ members, e.2.IsRegular
  | [] => by simp [HaveRegular]
  | (_, v) :: rest => by rw [HaveRegular, haveRegular_iff, List.forall_mem_cons]

end Json

namespace Buffered

open Json (IsRegular AreRegular HaveRegular)

/-! ## Values that have been buffered

Members are set one by one when a mapping becomes an object, and setting replaces. -/

mutual

/-- **What comes from a buffered value is regular.** -/
theorem isRegular_toJson : ∀ {b : Buffered} {v : Json}, b.toJson = .ok v → v.IsRegular
  | .null, _, h | .bool _, _, h | .natural _, _, h | .negative _, _, h | .text _, _, h
  | .float (.finite _), _, h | .float (.infinite _), _, h | .float .nan, _, h => by
      rw [toJson] at h
      rw [← Except.ok.inj h]
      trivial
  | .sequence items, v, h => by
      rw [toJson] at h
      obtain ⟨vs, hvs, rfl⟩ := except_map_eq_ok.mp h
      exact areRegular_toJsonItems hvs
  | .map entries, v, h => by
      rw [toJson] at h
      obtain ⟨members, hmembers, rfl⟩ := except_map_eq_ok.mp h
      exact haveRegular_toJsonMembers hmembers (by simp) (by simp)

lemma areRegular_toJsonItems : ∀ {items : List Buffered} {vs : List Json},
    toJsonItems items = .ok vs → AreRegular vs
  | [], _, h => by
      rw [toJsonItems] at h
      rw [← Except.ok.inj h]
      trivial
  | b :: rest, _, h => by
      rw [toJsonItems] at h
      obtain ⟨v, hv, h⟩ := except_bind_eq_ok.mp h
      obtain ⟨vs, hvs, h⟩ := except_bind_eq_ok.mp h
      rw [← Except.ok.inj h]
      exact ⟨isRegular_toJson hv, areRegular_toJsonItems hvs⟩

lemma haveRegular_toJsonMembers : ∀ {entries : List (Buffered × Buffered)}
    {before members : List (String × Json)}, toJsonMembers before entries = .ok members →
    (before.map (·.1)).Nodup → (∀ e ∈ before, IsRegular e.2) →
      (members.map (·.1)).Nodup ∧ HaveRegular members
  | [], _, _, h, hnodup, hregular => by
      rw [toJsonMembers] at h
      obtain rfl := Except.ok.inj h
      exact ⟨hnodup, Json.haveRegular_iff.mpr hregular⟩
  | (key, value) :: rest, before, _, h, hnodup, hregular => by
      rw [toJsonMembers] at h
      obtain ⟨name, -, h⟩ := except_bind_eq_ok.mp h
      obtain ⟨v, hv, h⟩ := except_bind_eq_ok.mp h
      exact haveRegular_toJsonMembers h (nodup_keys_setEntry name v hnodup)
        (forall_mem_setEntry (p := fun e => IsRegular e.2) (isRegular_toJson hv) hregular)

end

/-! ## Values that are buffered -/

mutual

/-- **Buffering a regular value loses nothing.** -/
theorem toJson_ofJson : ∀ {v : Json}, v.IsRegular → (ofJson v).toJson = .ok v
  | .null, _ | .bool _, _ | .number (.float _), _ | .string _, _ => rfl
  | .number (.int n), _ => by
      rw [ofJson]
      split_ifs with hn
      · rfl
      · rw [toJson, Json.nat, Int.toNat_of_nonneg (not_lt.mp hn)]
  | .array items, h => by
      rw [ofJson, toJson, toJsonItems_ofItems h]
      rfl
  | .object members, ⟨hnodup, h⟩ => by
      rw [ofJson, toJson, toJsonMembers_ofMembers h (by simpa using hnodup)]
      rfl

lemma toJsonItems_ofItems : ∀ {items : List Json}, AreRegular items →
    toJsonItems (ofItems items) = .ok items
  | [], _ => rfl
  | v :: rest, ⟨hv, hrest⟩ => by
      rw [ofItems, toJsonItems, toJson_ofJson hv, toJsonItems_ofItems hrest]
      rfl

lemma toJsonMembers_ofMembers : ∀ {members before : List (String × Json)}, HaveRegular members →
    ((before ++ members).map (·.1)).Nodup →
      toJsonMembers before (ofMembers members) = .ok (before ++ members)
  | [], before, _, _ => by rw [ofMembers, toJsonMembers, List.append_nil]
  | (name, v) :: rest, before, ⟨hv, hrest⟩, hnodup => by
      have hnew : name ∉ before.map (·.1) := by
        rw [List.map_append, List.nodup_append] at hnodup
        exact fun hmem => hnodup.2.2 name hmem name (by simp) rfl
      have htext : toText (if before.isEmpty then "a string key" else "a string") (.text name)
          = .ok name := rfl
      rw [ofMembers, toJsonMembers, htext, toJson_ofJson hv]
      have hset : setEntry name v before = before ++ [(name, v)] := setEntry_of_notMem hnew
      have hassoc : before ++ (name, v) :: rest = (before ++ [(name, v)]) ++ rest := by simp
      rw [hassoc] at hnodup ⊢
      exact (congrArg (toJsonMembers · (ofMembers rest)) hset).trans
        (toJsonMembers_ofMembers hrest hnodup)

end

end Buffered

end WorkerGen
