import Mathlib
import WorkerGen.Proofs.Data.Buffered

/-!
# The kinds of buffered values

What a buffered value is when it is read again: a text, one of several words, a number of 64 bits,
texts under texts, or any JSON value.  Each kind is a relation between buffered values and what they
stand for, and the reader of the kind answers exactly that.

Words are wider than their texts.  A name in a list may be given by its index, and where a word is
asked for, a mapping with the word as its only key and nothing under it does as well.

* `toVariant_eq_ok_iff`, `toWord_eq_ok_iff`, `toWord64_eq_ok_iff`, `toTexts_eq_ok_iff` — the reader
  of each kind.  These are equivalences, so that a document which is refused is known to be none of
  the kind.
* `toJson_eq_ok_iff` — a value is read as the JSON value that it stands for, `Denotes`.  Of two
  members under one name the last counts, at the place of the first (`lastMembers`).
-/

namespace WorkerGen

open List (Forall₂)

namespace Buffered

/-! ## Scalars

A value that is read again has been read once already, so its kind is known from the value alone and
no document is involved. -/

/-- Whether a value is a text. -/
def IsText (b : Buffered) (s : String) : Prop := b = .text s

/-- Whether a value selects a name among others: the name itself, or its index. -/
def IsVariant (names : List String) (b : Buffered) (name : String) : Prop :=
  b = .text name ∧ name ∈ names ∨ ∃ i, b = .natural i ∧ names[i]? = some name

/-- Whether a value is one of some words, or a mapping of one to nothing. -/
def IsWord (names : List String) (b : Buffered) (name : String) : Prop :=
  b = .text name ∧ name ∈ names ∨
    ∃ key value, b = .map [(key, value)] ∧ IsVariant names key name ∧
      (value = .null ∨ value = .map [])

/-- Whether a value is a natural number of at most 64 bits.  Zero may have a sign. -/
def IsWord64 (b : Buffered) (n : UInt64) : Prop := b = .natural n.toNat ∨ b = .negative n.toNat

/-- Whether a value is null or of another kind. -/
def IsOptional {α : Type} (Kind : Buffered → α → Prop) (b : Buffered) (o : Option α) : Prop :=
  b = .null ∧ o = none ∨ b ≠ .null ∧ ∃ v, Kind b v ∧ o = some v

/-- Whether a number is as narrow as those that are buffered. -/
def IsNarrow : Buffered → Prop
  | .natural n => n < 2 ^ 64
  | .negative n => n ≤ 0
  | _ => True

section
variable {b : Buffered} {names : List String} {name : String}

lemma toText_eq_ok_iff {expected s : String} : b.toText expected = .ok s ↔ IsText b s := by
  cases b <;> simp [toText, IsText]

/-- In a list of distinct names, a name is found at its index. -/
lemma findIdx?_eq_some_iff (hnodup : names.Nodup) {s : String} {i : ℕ} :
    names.findIdx? (· == s) = some i ↔ names[i]? = some s := by
  rw [List.findIdx?_eq_some_iff_getElem, List.getElem?_eq_some_iff]
  constructor
  · rintro ⟨hi, hs, -⟩
    exact ⟨hi, by simpa using hs⟩
  · rintro ⟨hi, rfl⟩
    refine ⟨hi, by simp, fun j hj => ?_⟩
    have hne : j ≠ i := by omega
    simpa [hnodup.getElem_inj_iff] using hne

lemma IsVariant.mem (h : IsVariant names b name) : name ∈ names := by
  rcases h with ⟨-, hmem⟩ | ⟨i, -, hi⟩
  · exact hmem
  · exact List.mem_of_getElem? hi

lemma toVariant_eq_ok_iff (hnodup : names.Nodup) {i : ℕ} :
    b.toVariant names = .ok i ↔ ∃ name, names[i]? = some name ∧ IsVariant names b name := by
  cases b with
  | text s =>
      have hfound : (text s).toVariant names = .ok i ↔ names.findIdx? (· == s) = some i := by
        rw [toVariant]
        cases names.findIdx? (· == s) <;> simp
      rw [hfound, findIdx?_eq_some_iff hnodup]
      constructor
      · exact fun h => ⟨s, h, .inl ⟨rfl, List.mem_of_getElem? h⟩⟩
      · rintro ⟨name, hname, ⟨heq, -⟩ | ⟨j, heq, -⟩⟩
        · rwa [text.inj heq]
        · cases heq
  | natural n =>
      have hindex : (natural n).toVariant names = .ok i ↔ n < names.length ∧ n = i := by
        rw [toVariant]
        split_ifs with hn <;> simp [hn]
      rw [hindex]
      constructor
      · rintro ⟨hn, rfl⟩
        exact ⟨names[n], List.getElem?_eq_getElem hn, .inr ⟨n, rfl, List.getElem?_eq_getElem hn⟩⟩
      · rintro ⟨name, hname, ⟨heq, -⟩ | ⟨j, heq, hj⟩⟩
        · cases heq
        · obtain rfl := natural.inj heq
          obtain ⟨hn, hj⟩ := List.getElem?_eq_some_iff.mp hj
          obtain ⟨hi, hname⟩ := List.getElem?_eq_some_iff.mp hname
          exact ⟨hn, hnodup.getElem_inj_iff.mp (hj.trans hname.symm)⟩
  | _ => simp [toVariant, IsVariant]

lemma toWord_eq_ok_iff (hnodup : names.Nodup) {i : ℕ} :
    b.toWord names = .ok i ↔ ∃ name, names[i]? = some name ∧ IsWord names b name := by
  cases b with
  | text s =>
      rw [toWord, toVariant_eq_ok_iff hnodup]
      simp [IsVariant, IsWord]
  | map entries =>
      rcases entries with _ | ⟨⟨key, value⟩, _ | ⟨e, rest⟩⟩
      · simp [toWord, IsWord]
      · have hword : (map [(key, value)]).toWord names = .ok i ↔
            key.toVariant names = .ok i ∧ (value = .null ∨ value = .map []) := by
          rw [toWord, except_bind_eq_ok]
          rcases value with _ | _ | _ | _ | _ | _ | _ | _ | _ <;>
            simp [pure, Except.pure, throw, throwThe, MonadExceptOf.throw]
        rw [hword, toVariant_eq_ok_iff hnodup]
        simp only [IsWord, reduceCtorEq, false_and, false_or, map.injEq, List.cons.injEq,
          Prod.mk.injEq, and_true]
        grind
      · simp [toWord, IsWord]
  | _ => simp [toWord, IsWord]

lemma toWord64_eq_ok_iff (hnarrow : b.IsNarrow) {n : UInt64} :
    b.toWord64 = .ok n ↔ IsWord64 b n := by
  have hsame : ∀ {k : ℕ}, k < 2 ^ 64 → (k.toUInt64 = n ↔ k = n.toNat) := by
    intro k hk
    rw [← UInt64.toNat_inj]
    have hnat : k.toUInt64.toNat = k := UInt64.toNat_ofNat_of_lt' hk
    rw [hnat]
  cases b with
  | natural k =>
      simp only [toWord64, IsWord64, Except.ok.injEq, natural.injEq, reduceCtorEq, or_false]
      exact hsame hnarrow
  | negative k =>
      have hk : k ≤ 0 := hnarrow
      simp only [toWord64, IsWord64, reduceCtorEq, negative.injEq, false_or]
      split_ifs with hminus
      · simp only [false_iff]
        omega
      · obtain rfl : k = 0 := by omega
        rw [Except.ok.injEq]
        exact (hsame (k := 0) (by simp)).trans (by omega)
  | _ => simp [toWord64, IsWord64]

lemma toOptional_eq_ok_iff {α : Type} {read : Buffered → Except Cause α}
    {Kind : Buffered → α → Prop} (hread : ∀ v, read b = .ok v ↔ Kind b v) {o : Option α} :
    b.toOptional read = .ok o ↔ IsOptional Kind b o := by
  have hsome : (read b).map some = .ok o ↔ ∃ v, Kind b v ∧ o = some v := by
    simp only [except_map_eq_ok, hread, eq_comm (a := o)]
  cases b with
  | null => simp [toOptional, IsOptional, eq_comm]
  | _ => exact hsome.trans (by simp [IsOptional])

end

/-! ## Texts under texts

The entries are put into a dictionary one by one, so that the last one under a name counts. -/

/-- Whether a value is a mapping of texts to texts.  The last one under a name counts. -/
def IsTexts (b : Buffered) (d : Dictionary String) : Prop :=
  ∃ texts : List (String × String), b = .map (texts.map fun e => (.text e.1, .text e.2)) ∧
    d = Dictionary.ofList texts

lemma foldlM_texts_eq_ok_iff : ∀ {entries : List (Buffered × Buffered)} {d d' : Dictionary String},
    (entries.foldlM (fun d (key, value) => do
      let name ← key.toText "a string"
      let text ← value.toText "a string"
      return d.insert name text) d : Except Cause (Dictionary String)) = .ok d' ↔
      ∃ texts : List (String × String), entries = texts.map (fun e => (.text e.1, .text e.2)) ∧
        d' = texts.foldl (fun d e => d.insert e.1 e.2) d
  | [], d, d' => by
      constructor
      · exact fun h => ⟨[], rfl, (Except.ok.inj h).symm⟩
      · rintro ⟨texts, htexts, rfl⟩
        obtain rfl := List.map_eq_nil_iff.mp htexts.symm
        rfl
  | (key, value) :: rest, d, d' => by
      rw [List.foldlM_cons, except_bind_eq_ok]
      constructor
      · rintro ⟨r, hr, hrest⟩
        obtain ⟨name, hname, hr⟩ := except_bind_eq_ok.mp hr
        obtain ⟨s, hs, hr⟩ := except_bind_eq_ok.mp hr
        obtain rfl := toText_eq_ok_iff.mp hname
        obtain rfl := toText_eq_ok_iff.mp hs
        obtain rfl := Except.ok.inj hr
        obtain ⟨texts, rfl, rfl⟩ := foldlM_texts_eq_ok_iff.mp hrest
        exact ⟨(name, s) :: texts, rfl, rfl⟩
      · rintro ⟨texts, hentries, rfl⟩
        cases texts with
        | nil => simp at hentries
        | cons e texts =>
            obtain ⟨heq, rfl⟩ := List.cons.inj hentries
            obtain ⟨rfl, rfl⟩ := Prod.mk.inj heq
            exact ⟨d.insert e.1 e.2, rfl, foldlM_texts_eq_ok_iff.mpr ⟨texts, rfl, rfl⟩⟩

lemma toTexts_eq_ok_iff {b : Buffered} {d : Dictionary String} :
    b.toTexts = .ok d ↔ IsTexts b d := by
  cases b with
  | map entries =>
      rw [toTexts]
      refine foldlM_texts_eq_ok_iff.trans ?_
      constructor
      · rintro ⟨texts, rfl, rfl⟩
        exact ⟨texts, rfl, rfl⟩
      · rintro ⟨texts, heq, rfl⟩
        exact ⟨texts, map.inj heq, rfl⟩
  | _ => simp [toTexts, IsTexts]

/-! ## Any value

The relation and the reader recur on a value in the same way, and they are compared by the same
recursion, with one equivalence for values, one for items and one for members. -/

/-- The members of an object that are set one after another: the last one of a name counts, at the
place of the first. -/
def lastMembers (named : List (String × Json)) : List (String × Json) :=
  named.foldl (fun members e => setEntry e.1 e.2 members) []

/-- Whether a value stands for a JSON value.  The keys of its mappings are texts, and the numbers
that are not finite are null. -/
inductive Denotes : Buffered → Json → Prop
  | null : Denotes .null .null
  | bool (b : Bool) : Denotes (.bool b) (.bool b)
  | natural (n : ℕ) : Denotes (.natural n) (.nat n)
  | negative (n : ℤ) : Denotes (.negative n) (.int n)
  | finite (x : Binary64) : Denotes (.float (.finite x)) (.number (.float x))
  | infinite (minus : Bool) : Denotes (.float (.infinite minus)) .null
  | nan : Denotes (.float .nan) .null
  | text (s : String) : Denotes (.text s) (.string s)
  | sequence {items : List Buffered} {vs : List Json} (length : items.length = vs.length)
      (each : ∀ e ∈ items.zip vs, Denotes e.1 e.2) : Denotes (.sequence items) (.array vs)
  | map {entries : List (Buffered × Buffered)} {named : List (String × Json)}
      (length : entries.length = named.length)
      (keys : ∀ e ∈ entries.zip named, IsText e.1.1 e.2.1)
      (values : ∀ e ∈ entries.zip named, Denotes e.1.2 e.2.2) :
      Denotes (.map entries) (.object (lastMembers named))

lemma denotes_sequence_iff {items : List Buffered} {v : Json} :
    Denotes (.sequence items) v ↔ ∃ vs, Forall₂ Denotes items vs ∧ v = .array vs := by
  simp only [List.forall₂_iff_zip]
  constructor
  · intro h
    cases h with
    | sequence length each => exact ⟨_, ⟨length, each _⟩, rfl⟩
  · rintro ⟨vs, ⟨hlength, heach⟩, rfl⟩
    exact .sequence hlength fun e he => heach he

lemma denotes_map_iff {entries : List (Buffered × Buffered)} {v : Json} :
    Denotes (.map entries) v ↔ ∃ named, Forall₂ (fun e f => IsText e.1 f.1 ∧ Denotes e.2 f.2)
      entries named ∧ v = .object (lastMembers named) := by
  simp only [List.forall₂_iff_zip]
  constructor
  · intro h
    cases h with
    | map length keys values =>
        exact ⟨_, ⟨length, fun he => ⟨keys _ he, values _ he⟩⟩, rfl⟩
  · rintro ⟨named, ⟨hlength, heach⟩, rfl⟩
    exact .map hlength (fun e he => (heach he).1) fun e he => (heach he).2

mutual

/-- **A value is read as the JSON value that it stands for.** -/
theorem toJson_eq_ok_iff : ∀ {b : Buffered} {v : Json}, b.toJson = .ok v ↔ Denotes b v
  | .sequence items, v => by
      rw [toJson, except_map_eq_ok, denotes_sequence_iff]
      simp only [toJsonItems_eq_ok_iff, eq_comm]
  | .map entries, v => by
      rw [toJson, except_map_eq_ok, denotes_map_iff]
      simp only [toJsonMembers_eq_ok_iff]
      constructor
      · rintro ⟨members, ⟨named, hnamed, rfl⟩, rfl⟩
        exact ⟨named, hnamed, rfl⟩
      · rintro ⟨named, hnamed, rfl⟩
        exact ⟨_, ⟨named, hnamed, rfl⟩, rfl⟩
  | .null, v | .bool _, v | .natural _, v | .negative _, v | .text _, v
  | .float (.finite _), v | .float (.infinite _), v | .float .nan, v => by
      rw [toJson, Except.ok.injEq]
      constructor
      · rintro rfl
        constructor
      · rintro ⟨⟩
        rfl

lemma toJsonItems_eq_ok_iff : ∀ {items : List Buffered} {vs : List Json},
    toJsonItems items = .ok vs ↔ Forall₂ Denotes items vs
  | [], vs => by simp [toJsonItems, eq_comm]
  | b :: rest, vs => by
      rw [toJsonItems, except_bind_eq_ok]
      simp only [toJson_eq_ok_iff, except_bind_eq_ok, toJsonItems_eq_ok_iff,
        List.forall₂_cons_left_iff]
      constructor
      · rintro ⟨v, hv, us, hus, heq⟩
        exact ⟨v, us, hv, hus, (Except.ok.inj heq).symm⟩
      · rintro ⟨v, us, hv, hus, rfl⟩
        exact ⟨v, hv, us, hus, rfl⟩

lemma toJsonMembers_eq_ok_iff : ∀ {entries : List (Buffered × Buffered)}
    {before members : List (String × Json)}, toJsonMembers before entries = .ok members ↔
      ∃ named : List (String × Json),
        Forall₂ (fun e f => IsText e.1 f.1 ∧ Denotes e.2 f.2) entries named ∧
          members = named.foldl (fun members e => setEntry e.1 e.2 members) before
  | [], before, members => by simp [toJsonMembers, eq_comm]
  | (key, value) :: rest, before, members => by
      rw [toJsonMembers, except_bind_eq_ok]
      simp only [except_bind_eq_ok, toText_eq_ok_iff, toJson_eq_ok_iff, toJsonMembers_eq_ok_iff,
        List.forall₂_cons_left_iff]
      constructor
      · rintro ⟨name, hname, v, hv, named, hnamed, rfl⟩
        exact ⟨_, ⟨(name, v), named, ⟨hname, hv⟩, hnamed, rfl⟩, rfl⟩
      · rintro ⟨_, ⟨⟨name, v⟩, named, ⟨hname, hv⟩, hnamed, rfl⟩, rfl⟩
        exact ⟨name, hname, v, hv, named, hnamed, rfl⟩

end

end Buffered

end WorkerGen
