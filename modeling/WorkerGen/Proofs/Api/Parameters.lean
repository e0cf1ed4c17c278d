import Mathlib
import WorkerGen.Api.Reading
import WorkerGen.Proofs.Data.Kinds

/-!
# The parameters of an action

`Parameters.Spells` says which parameters spell an action: its name, each of its required parameters
once, and each of its optional ones at most once, all of their kinds.  Other parameters do not
matter, however often they come.  Reading parameters gives exactly the action that they spell
(`toAction_eq_ok_iff`).

The readers of actions go through the parameters and keep what they have found of each.  `Settled`
says what is found of one of them, so a reader is right if every parameter of its own is settled.
Each reader is a fold, and one lemma about such folds (`foldlM_eq_ok_iff`) leaves two questions to
it: what is found of no parameters, and what one more changes.  These are answered parameter by
parameter, since one that goes by another name leaves what has been found as it is.

The name of the action is found first and the other parameters are then given to its reader.  It may
be given by its index among the names, of which each has one (`index_unique`).
-/

namespace WorkerGen

/-! ## Entries that come once

A parameter that comes twice is an error, even if it says the same both times.  What stands under a
name is therefore a list, and the kinds of parameters differ in how long it may be. -/

section
variable {α β : Type} {R R' : β → α → Prop} {name key : String} {b : β} {v : α}
  {entries rest : List (String × β)}

/-- What stands under a name, in order. -/
def under (name : String) (entries : List (String × β)) : List β :=
  entries.filterMap fun e => if e.1 = name then some e.2 else none

/-- Whether a name comes once, with a value. -/
def Once (R : β → α → Prop) (name : String) (entries : List (String × β)) (v : α) : Prop :=
  ∃ b, under name entries = [b] ∧ R b v

/-- Whether a name comes once, with a value, or never, and then the value is `default`. -/
def OnceOr (default : α) (R : β → α → Prop) (name : String) (entries : List (String × β)) (v : α) :
    Prop :=
  under name entries = [] ∧ v = default ∨ Once R name entries v

/-- What is found of a name behind some entries, if `seen` is what has been found before. -/
def Settled (R : β → α → Prop) (name : String) (seen : Option α) (entries : List (String × β))
    (found : Option α) : Prop :=
  under name entries = [] ∧ found = seen ∨ seen = none ∧ ∃ v, Once R name entries v ∧ found = some v

@[simp]
lemma under_nil : under name ([] : List (String × β)) = [] := rfl

@[simp]
lemma under_cons_self : under name ((name, b) :: rest) = b :: under name rest :=
  List.filterMap_cons_some (if_pos rfl)

lemma under_cons_of_ne (h : key ≠ name) : under name ((key, b) :: rest) = under name rest :=
  List.filterMap_cons_none (if_neg h)

lemma Once.imp (hR : ∀ b ∈ under name entries, ∀ v, R b v → R' b v)
    (h : Once R name entries v) : Once R' name entries v := by
  obtain ⟨b, hb, hv⟩ := h
  exact ⟨b, hb, hR b (by simp [hb]) v hv⟩

lemma once_congr (hR : ∀ b ∈ under name entries, ∀ v, R b v ↔ R' b v) :
    Once R name entries v ↔ Once R' name entries v :=
  ⟨Once.imp fun b hb v => (hR b hb v).mp, Once.imp fun b hb v => (hR b hb v).mpr⟩

lemma onceOr_congr {default : α} (hR : ∀ b ∈ under name entries, ∀ v, R b v ↔ R' b v) :
    OnceOr default R name entries v ↔ OnceOr default R' name entries v :=
  or_congr_right (once_congr hR)

variable {seen found : Option α}

lemma settled_nil : Settled R name seen [] found ↔ found = seen := by
  simp [Settled, Once]

lemma settled_cons_of_ne (h : key ≠ name) :
    Settled R name seen ((key, b) :: rest) found ↔ Settled R name seen rest found := by
  simp only [Settled, Once, under_cons_of_ne h]

lemma settled_cons_self : Settled R name seen ((name, b) :: rest) found ↔
    seen = none ∧ ∃ v, R b v ∧ Settled R name (some v) rest found := by
  constructor
  · rintro (⟨hnil, -⟩ | ⟨rfl, v, ⟨b', hb, hv⟩, rfl⟩)
    · simp at hnil
    · rw [under_cons_self] at hb
      obtain ⟨rfl, hrest⟩ := List.cons.inj hb
      exact ⟨rfl, v, hv, .inl ⟨hrest, rfl⟩⟩
  · rintro ⟨rfl, v, hv, ⟨hrest, rfl⟩ | ⟨hnone, -⟩⟩
    · exact .inr ⟨rfl, v, ⟨b, by rw [under_cons_self, hrest], hv⟩, rfl⟩
    · exact absurd hnone (by simp)

/-- What is found of a name that may come is its value, or else the default. -/
lemma exists_settled_iff {default : α} :
    (∃ found, Settled R name none entries found ∧ v = found.getD default) ↔
      OnceOr default R name entries v := by
  constructor
  · rintro ⟨found, ⟨hnone, rfl⟩ | ⟨-, w, hw, rfl⟩, rfl⟩
    · exact .inl ⟨hnone, rfl⟩
    · exact .inr hw
  · rintro (⟨hnone, rfl⟩ | hv)
    · exact ⟨none, .inl ⟨hnone, rfl⟩, rfl⟩
    · exact ⟨some v, .inr ⟨rfl, v, hv, rfl⟩, rfl⟩

end

namespace Parameters

open Buffered

section
variable {α σ : Type} {ps : Parameters} {name : String} {b : Buffered} {action : Action}

/-! ## Reading one parameter after another

A reader keeps an optional value for each of its parameters.  One more entry leaves all of them as
they are, or it goes by the name of one of them, which then must be empty; what is put there is read
from the value of the entry alone. -/

/-- Parameters are read as `P` says if it says so of none and of one more. -/
lemma foldlM_eq_ok_iff {f : σ → String × Buffered → Except Cause σ} {P : σ → Parameters → σ → Prop}
    (hnil : ∀ s t, P s [] t ↔ t = s)
    (hcons : ∀ s e ps t, P s (e :: ps) t ↔ ∃ r, f s e = .ok r ∧ P r ps t) :
    ∀ {ps : Parameters} {s t : σ}, ps.foldlM f s = .ok t ↔ P s ps t
  | [], s, t => by
      rw [hnil, List.foldlM_nil, eq_comm (a := t)]
      exact Except.ok.injEq s t ▸ Iff.rfl
  | e :: ps, s, t => by
      rw [List.foldlM_cons, except_bind_eq_ok, hcons]
      simp only [foldlM_eq_ok_iff hnil hcons]

/-- What is found of a parameter, as its reader has it. -/
abbrev Found (read : Buffered → Except Cause α) (name : String) (seen : Option α) (ps : Parameters)
    (found : Option α) : Prop :=
  Settled (fun b v => read b = .ok v) name seen ps found

lemma found_cons_self {read : Buffered → Except Cause α} {seen found : Option α} :
    Found read name seen ((name, b) :: ps) found ↔
      ∃ s, field name read seen b = .ok s ∧ Found read name s ps found := by
  rw [Found, settled_cons_self]
  cases seen with
  | some v => simp [field]
  | none =>
      rw [eq_self_iff_true, true_and]
      simp only [field, except_map_eq_ok]
      constructor
      · rintro ⟨v, hv, hfound⟩
        exact ⟨some v, ⟨v, hv, rfl⟩, hfound⟩
      · rintro ⟨_, ⟨v, hv, rfl⟩, hfound⟩
        exact ⟨v, hv, hfound⟩

/-- What is read of one parameter is put in its place. -/
lemma exists_bind_pure {x : Except Cause α} {f : α → σ} {Q : σ → Prop} :
    (∃ r, (x >>= fun v => pure (f v)) = .ok r ∧ Q r) ↔ ∃ v, x = .ok v ∧ Q (f v) := by
  simp only [except_bind_eq_ok]
  constructor
  · rintro ⟨r, ⟨v, hv, hr⟩, hQ⟩
    exact ⟨v, hv, Except.ok.inj hr ▸ hQ⟩
  · rintro ⟨v, hv, hQ⟩
    exact ⟨_, ⟨v, hv, rfl⟩, hQ⟩

lemma exists_pure {r : σ} {Q : σ → Prop} :
    (∃ s, (pure r : Except Cause σ) = .ok s ∧ Q s) ↔ Q r :=
  ⟨fun ⟨_, hr, hQ⟩ => Except.ok.inj hr ▸ hQ, fun hQ => ⟨r, rfl, hQ⟩⟩

lemma require_eq_ok_iff {seen : Option α} {v : α} : require name seen = .ok v ↔ seen = some v := by
  cases seen <;> simp [require]

variable {Kind : Buffered → α → Prop} {read : Buffered → Except Cause α} {v : α}

/-- What is found of a parameter that has to come is its value. -/
lemma found_some_iff (hread : ∀ b ∈ under name ps, ∀ v, read b = .ok v ↔ Kind b v) :
    Found read name none ps (some v) ↔ Once Kind name ps v := by
  rw [Found, Settled, ← once_congr hread]
  simp

lemma found_text_iff {s : String} : Found text name none ps (some s) ↔ Once IsText name ps s :=
  found_some_iff fun _ _ _ => toText_eq_ok_iff

lemma exists_found_iff {default : α} (hread : ∀ b ∈ under name ps, ∀ v, read b = .ok v ↔ Kind b v) :
    (∃ found, Found read name none ps found ∧ v = found.getD default) ↔
      OnceOr default Kind name ps v := by
  rw [← onceOr_congr hread]
  exact exists_settled_iff

end

/-! ## Actions

Actions with the same shape of parameters share their lemma: a text and perhaps one other parameter
(`pair_eq_ok_iff`), or what is stored, with a lifetime or a type. -/

section
variable {ps : Parameters} {action : Action}

lemma toJsonList_eq_ok_iff {b : Buffered} {vs : List Json} :
    b.toJsonList = .ok vs ↔ Denotes b (.array vs) := by
  cases b with
  | sequence items =>
      rw [toJsonList, toJsonItems_eq_ok_iff, denotes_sequence_iff]
      simp
  | _ =>
      simp only [toJsonList, reduceCtorEq, false_iff]
      rintro ⟨⟩

section
variable {β : Type} {first second : String} {read : Buffered → Except Cause β}
  {f : Option String × Option β → String × Buffered → Except Cause (Option String × Option β)}
  (hfirst : ∀ s b, f s (first, b) = do return (← field first text s.1 b, s.2))
  (hsecond : ∀ s b, f s (second, b) = do return (s.1, ← field second read s.2 b))
  (hothers : ∀ s name b, name ≠ first → name ≠ second → f s (name, b) = pure s)

include hfirst hsecond hothers in
/-- Two parameters are read apart from each other. -/
lemma foldlM_pair_eq_ok_iff (hne : first ≠ second) {s t : Option String × Option β} :
    ps.foldlM f s = .ok t ↔ Found text first s.1 ps t.1 ∧ Found read second s.2 ps t.2 := by
  refine foldlM_eq_ok_iff (P := fun (s : Option String × Option β) ps t =>
    Found text first s.1 ps t.1 ∧ Found read second s.2 ps t.2) ?_ ?_
  · rintro ⟨s₁, s₂⟩ ⟨t₁, t₂⟩
    simp [Found, settled_nil]
  · rintro s ⟨name, b⟩ ps t
    by_cases hname : name = first
    · subst hname
      simp only [found_cons_self, Found, settled_cons_of_ne hne, hfirst, exists_bind_pure,
        ← exists_and_right, and_assoc]
    by_cases hname' : name = second
    · subst hname'
      simp only [found_cons_self, Found, settled_cons_of_ne hname, hsecond, exists_bind_pure,
        ← exists_and_left]
      simp only [and_left_comm]
    · simp only [Found, settled_cons_of_ne hname, settled_cons_of_ne hname',
        hothers s name b hname hname', exists_pure]

include hfirst hsecond hothers in
/-- The parameters of an action that has a text and may have another parameter. -/
lemma pair_eq_ok_iff {default : β} {Kind : Buffered → β → Prop} {mk : String → β → Action}
    (hne : first ≠ second) (hread : ∀ b v, read b = .ok v ↔ Kind b v) :
    (ps.foldlM f (none, none) >>= fun s => do
      return mk (← require first s.1) (s.2.getD default)) = .ok action ↔
        ∃ v w, action = mk v w ∧ Once IsText first ps v ∧ OnceOr default Kind second ps w := by
  have hoptional : ∀ {w}, (∃ found, Found read second none ps found ∧ w = found.getD default) ↔
      OnceOr default Kind second ps w := exists_found_iff fun b _ => hread b
  simp only [except_bind_eq_ok, foldlM_pair_eq_ok_iff hfirst hsecond hothers hne, Prod.exists,
    require_eq_ok_iff]
  constructor
  · rintro ⟨_, found, ⟨hv, hfound⟩, v, rfl, h⟩
    exact ⟨v, _, (Except.ok.inj h).symm, found_text_iff.mp hv, hoptional.mp ⟨found, hfound, rfl⟩⟩
  · rintro ⟨v, w, rfl, hv, hw⟩
    obtain ⟨found, hfound, rfl⟩ := hoptional.mpr hw
    exact ⟨some v, found, ⟨found_text_iff.mpr hv, hfound⟩, v, rfl, rfl⟩

end

lemma sql_eq_ok_iff {verb : SqlVerb} : sql verb ps = .ok action ↔
    ∃ statement arguments, action = .sql verb statement arguments ∧
      Once IsText "sql" ps statement ∧
        OnceOr [] (fun b vs => Denotes b (.array vs)) "params" ps arguments :=
  pair_eq_ok_iff (fun _ _ => by simp) (fun _ _ => by simp)
    (fun _ _ _ hsql hparams => by simp [hsql, hparams]) (by decide) fun _ _ => toJsonList_eq_ok_iff

lemma key_eq_ok_iff {k : String} : key ps = .ok k ↔ Once IsText "key" ps k := by
  rw [key, except_bind_eq_ok]
  refine (exists_congr fun t => and_congr_left' (foldlM_eq_ok_iff (P := fun s ps t =>
    Found text "key" s ps t) ?_ ?_)).trans ?_
  · exact fun s t => settled_nil
  · rintro s ⟨name, b⟩ ps t
    by_cases hkey : name = "key"
    · subst hkey
      simp only [found_cons_self, beq_self_eq_true, ↓reduceIte]
    · simp only [Found, settled_cons_of_ne, ne_eq, beq_iff_eq, hkey, not_false_eq_true,
        ↓reduceIte, exists_pure]
  · simp only [require_eq_ok_iff, exists_eq_right]
    exact found_text_iff

lemma format_eq_ok_iff {b : Buffered} {f : ValueFormat} :
    format b = .ok f ↔ IsWord ["text", "json"] b f.name := by
  rw [format, except_bind_eq_ok]
  simp only [toWord_eq_ok_iff (show ["text", "json"].Nodup by decide)]
  constructor
  · rintro ⟨i, ⟨name, hname, hword⟩, h⟩
    obtain rfl := Except.ok.inj h
    rcases i with _ | _ | i
    · obtain rfl : "text" = name := by simpa using hname
      exact hword
    · obtain rfl : "json" = name := by simpa using hname
      exact hword
    · simp at hname
  · intro hword
    cases f with
    | text => exact ⟨0, ⟨"text", rfl, hword⟩, rfl⟩
    | json => exact ⟨1, ⟨"json", rfl, hword⟩, rfl⟩

lemma kvGet_eq_ok_iff : kvGet ps = .ok action ↔ ∃ k form, action = .kvGet k form ∧
    Once IsText "key" ps k ∧
      OnceOr .text (fun b f => IsWord ["text", "json"] b (ValueFormat.name f)) "type" ps form :=
  pair_eq_ok_iff (fun _ _ => by simp) (fun _ _ => by simp)
    (fun _ _ _ hkey htype => by simp [hkey, htype]) (by decide) fun _ _ => format_eq_ok_iff

lemma stored_eq_ok_iff {α : Type} {third k : String} {value : Json} {extra : Option α}
    {read : Buffered → Except Cause α} {Kind : Buffered → α → Prop} (hkey : third ≠ "key")
    (hvalue : third ≠ "value") (hread : ∀ b ∈ under third ps, ∀ v, read b = .ok v ↔ Kind b v) :
    stored third read ps = .ok (k, value, extra) ↔ Once IsText "key" ps k ∧
      Once Denotes "value" ps value ∧ OnceOr none (IsOptional Kind) third ps extra := by
  rw [stored, except_bind_eq_ok]
  refine (exists_congr fun t => and_congr_left' (foldlM_eq_ok_iff (P := fun s ps t =>
    Found text "key" s.1 ps t.1 ∧ Found toJson "value" s.2.1 ps t.2.1 ∧
      Found (toOptional read) third s.2.2 ps t.2.2) ?_ ?_)).trans ?_
  · rintro ⟨s₁, s₂, s₃⟩ ⟨t₁, t₂, t₃⟩
    simp [Found, settled_nil]
  · rintro ⟨s₁, s₂, s₃⟩ ⟨name, b⟩ ps ⟨t₁, t₂, t₃⟩
    by_cases hnamed : name = "key"
    · subst hnamed
      simp only [found_cons_self, Found, settled_cons_of_ne, ne_eq, beq_iff_eq, String.reduceEq,
        hkey.symm, not_false_eq_true, ↓reduceIte, exists_bind_pure, ← exists_and_right, and_assoc]
    by_cases hnamed' : name = "value"
    · subst hnamed'
      simp only [found_cons_self, Found, settled_cons_of_ne, ne_eq, beq_iff_eq, String.reduceEq,
        hvalue.symm, not_false_eq_true, ↓reduceIte, exists_bind_pure, ← exists_and_left,
        ← exists_and_right, and_assoc]
      simp only [and_left_comm]
    by_cases hthird : name = third
    · subst hthird
      simp only [found_cons_self, Found, settled_cons_of_ne, ne_eq, beq_iff_eq, hkey, hvalue,
        not_false_eq_true, ↓reduceIte, exists_bind_pure, ← exists_and_left]
      simp only [and_left_comm]
    · simp only [Found, settled_cons_of_ne, ne_eq, beq_iff_eq, hnamed, hnamed', hthird,
        not_false_eq_true, ↓reduceIte, exists_pure]
  · have hv : ∀ {v}, Found toJson "value" none ps (some v) ↔ Once Denotes "value" ps v :=
      found_some_iff fun b _ v => toJson_eq_ok_iff
    have hextra : ∀ {o}, (∃ found, Found (toOptional read) third none ps found ∧
        o = found.getD none) ↔ OnceOr none (IsOptional Kind) third ps o :=
      exists_found_iff fun b hb o => toOptional_eq_ok_iff (hread b hb)
    simp only [Prod.exists, except_bind_eq_ok, require_eq_ok_iff]
    constructor
    · rintro ⟨_, _, found, ⟨hk', hv', hfound⟩, k, rfl, v, rfl, h⟩
      obtain ⟨rfl, heq⟩ := Prod.mk.inj (Except.ok.inj h)
      obtain ⟨rfl, rfl⟩ := Prod.mk.inj heq
      exact ⟨found_text_iff.mp hk', hv.mp hv', hextra.mp ⟨found, hfound, rfl⟩⟩
    · rintro ⟨hk', hv', hextra'⟩
      obtain ⟨found, hfound, rfl⟩ := hextra.mpr hextra'
      exact ⟨some k, some value, found, ⟨found_text_iff.mpr hk', hv.mpr hv', hfound⟩, k, rfl, value,
        rfl, rfl⟩

lemma fetch_eq_ok_iff : fetch ps = .ok action ↔ ∃ url method headers body,
    action = .fetch url method headers body ∧ Once IsText "url" ps url ∧
      OnceOr Action.defaultMethod IsText "method" ps method ∧
      OnceOr .empty IsTexts "headers" ps headers ∧
      OnceOr none (IsOptional Denotes) "body" ps body := by
  rw [fetch, except_bind_eq_ok]
  refine (exists_congr fun t => and_congr_left' (foldlM_eq_ok_iff (P := fun s ps t =>
    Found text "url" s.url ps t.url ∧ Found text "method" s.method ps t.method ∧
      Found toTexts "headers" s.headers ps t.headers ∧
      Found (toOptional toJson) "body" s.body ps t.body) ?_ ?_)).trans ?_
  · rintro ⟨s₁, s₂, s₃, s₄⟩ ⟨t₁, t₂, t₃, t₄⟩
    simp [Found, settled_nil]
  · rintro s ⟨name, b⟩ ps t
    by_cases hurl : name = "url"
    · subst hurl
      simp only [found_cons_self, Found, settled_cons_of_ne, ne_eq, beq_iff_eq, String.reduceEq,
        not_false_eq_true, ↓reduceIte, exists_bind_pure, ← exists_and_right, and_assoc]
    by_cases hmethod : name = "method"
    · subst hmethod
      simp only [found_cons_self, Found, settled_cons_of_ne, ne_eq, beq_iff_eq, String.reduceEq,
        not_false_eq_true, ↓reduceIte, exists_bind_pure, ← exists_and_left, ← exists_and_right,
        and_assoc]
      simp only [and_left_comm]
    by_cases hheaders : name = "headers"
    · subst hheaders
      simp only [found_cons_self, Found, settled_cons_of_ne, ne_eq, beq_iff_eq, String.reduceEq,
        not_false_eq_true, ↓reduceIte, exists_bind_pure, ← exists_and_left, ← exists_and_right,
        and_assoc]
      simp only [and_left_comm]
    by_cases hbody : name = "body"
    · subst hbody
      simp only [found_cons_self, Found, settled_cons_of_ne, ne_eq, beq_iff_eq, String.reduceEq,
        not_false_eq_true, ↓reduceIte, exists_bind_pure, ← exists_and_left]
      simp only [and_left_comm]
    · simp only [Found, settled_cons_of_ne, ne_eq, beq_iff_eq, hurl, hmethod, hheaders, hbody,
        not_false_eq_true, ↓reduceIte, exists_pure]
  · have hmethod : ∀ {s}, (∃ found, Found text "method" none ps found ∧
        s = found.getD Action.defaultMethod) ↔
          OnceOr Action.defaultMethod IsText "method" ps s :=
      exists_found_iff fun b _ s => toText_eq_ok_iff
    have hheaders : ∀ {d}, (∃ found, Found toTexts "headers" none ps found ∧
        d = found.getD .empty) ↔ OnceOr .empty IsTexts "headers" ps d :=
      exists_found_iff fun b _ d => toTexts_eq_ok_iff
    have hbody : ∀ {o}, (∃ found, Found (toOptional toJson) "body" none ps found ∧
        o = found.getD none) ↔ OnceOr none (IsOptional Denotes) "body" ps o :=
      exists_found_iff fun b _ o => toOptional_eq_ok_iff fun v => toJson_eq_ok_iff
    simp only [except_bind_eq_ok, require_eq_ok_iff]
    constructor
    · rintro ⟨⟨_, method, headers, body⟩, ⟨hu, hm, hh, hb⟩, url, rfl, h⟩
      exact ⟨url, _, _, _, (Except.ok.inj h).symm, found_text_iff.mp hu, hmethod.mp ⟨_, hm, rfl⟩,
        hheaders.mp ⟨_, hh, rfl⟩, hbody.mp ⟨_, hb, rfl⟩⟩
    · rintro ⟨url, method, headers, body, rfl, hu, hm, hh, hb⟩
      obtain ⟨method, hfound, rfl⟩ := hmethod.mpr hm
      obtain ⟨headers, hfound', rfl⟩ := hheaders.mpr hh
      obtain ⟨body, hfound'', rfl⟩ := hbody.mpr hb
      exact ⟨⟨some url, method, headers, body⟩,
        ⟨found_text_iff.mpr hu, hfound, hfound', hfound''⟩, url, rfl, rfl⟩

/-! ### Parameters that spell an action

What has to stand under the names of parameters, for an action of each kind.  The relation knows
nothing of readers, and the two lemmas that tie it to them go through the kinds, one each way. -/

/-- Whether parameters are those of an action: the required ones are there, and the optional ones
are those that are there or else their defaults. -/
def AreOf (ps : Parameters) : Action → Prop
  | .sql _ statement arguments => Once IsText "sql" ps statement ∧
    OnceOr [] (fun b vs => Denotes b (.array vs)) "params" ps arguments
  | .kvGet k form => Once IsText "key" ps k ∧
    OnceOr .text (fun b f => IsWord ["text", "json"] b (ValueFormat.name f)) "type" ps form
  | .kvPut k value lifetime => Once IsText "key" ps k ∧ Once Denotes "value" ps value ∧
    OnceOr none (IsOptional IsWord64) "ttl" ps lifetime
  | .kvDelete k | .r2Get k | .r2Delete k => Once IsText "key" ps k
  | .r2Put k value contentType => Once IsText "key" ps k ∧ Once Denotes "value" ps value ∧
    OnceOr none (IsOptional IsText) "content_type" ps contentType
  | .fetch url method headers body => Once IsText "url" ps url ∧
    OnceOr Action.defaultMethod IsText "method" ps method ∧
    OnceOr .empty IsTexts "headers" ps headers ∧
    OnceOr none (IsOptional Denotes) "body" ps body

/-- Whether parameters spell an action, by its name and the parameters that it has. -/
structure Spells (ps : Parameters) (action : Action) : Prop where
  name : Once (IsVariant Action.names) "action" ps action.name
  parameters : ps.AreOf action

lemma index_unique {i j : ℕ} {name : String} (hi : Action.names[i]? = some name)
    (hj : Action.names[j]? = some name) : i = j := by
  have hnodup : Action.names.Nodup := by decide
  obtain ⟨hi, rfl⟩ := List.getElem?_eq_some_iff.mp hi
  obtain ⟨hj, heq⟩ := List.getElem?_eq_some_iff.mp hj
  exact (hnodup.getElem_inj_iff.mp heq).symm

lemma mem_of_mem_under {α : Type} {name : String} {b : α} {entries : List (String × α)}
    (h : b ∈ under name entries) : (name, b) ∈ entries := by
  obtain ⟨e, he, heq⟩ := List.mem_filterMap.mp h
  split_ifs at heq with hname
  rwa [← hname, ← Option.some.inj heq]

lemma stored_lifetime_eq_ok_iff (hnarrow : ∀ e ∈ ps, e.2.IsNarrow) {k : String} {value : Json}
    {lifetime : Option UInt64} : stored "ttl" toWord64 ps = .ok (k, value, lifetime) ↔
      ps.AreOf (.kvPut k value lifetime) :=
  stored_eq_ok_iff (by decide) (by decide) fun _ hb _ =>
    toWord64_eq_ok_iff (hnarrow _ (mem_of_mem_under hb))

lemma stored_contentType_eq_ok_iff {k : String} {value : Json} {contentType : Option String} :
    stored "content_type" text ps = .ok (k, value, contentType) ↔
      ps.AreOf (.r2Put k value contentType) :=
  stored_eq_ok_iff (by decide) (by decide) fun _ _ _ => toText_eq_ok_iff

/-- The parameters with the index of a name are read as an action of that name. -/
lemma areOf_of_action (hnarrow : ∀ e ∈ ps, e.2.IsNarrow) {i : ℕ} (hi : i < Action.names.length)
    (h : Parameters.action i ps = .ok action) :
    Action.names[i]? = some action.name ∧ ps.AreOf action := by
  have hlength : Action.names.length = 10 := rfl
  rw [hlength] at hi
  interval_cases i
  case «0» | «1» | «2» =>
    obtain ⟨s, vs, rfl, hps⟩ := sql_eq_ok_iff.mp h
    exact ⟨rfl, hps⟩
  case «3» =>
    obtain ⟨k, f, rfl, hps⟩ := kvGet_eq_ok_iff.mp h
    exact ⟨rfl, hps⟩
  case «4» =>
    obtain ⟨⟨k, v, o⟩, hps, h⟩ := except_bind_eq_ok.mp h
    obtain rfl := Except.ok.inj h
    exact ⟨rfl, (stored_lifetime_eq_ok_iff hnarrow).mp hps⟩
  case «7» =>
    obtain ⟨⟨k, v, o⟩, hps, h⟩ := except_bind_eq_ok.mp h
    obtain rfl := Except.ok.inj h
    exact ⟨rfl, stored_contentType_eq_ok_iff.mp hps⟩
  case «5» | «6» | «8» =>
    obtain ⟨k, hps, h⟩ := except_bind_eq_ok.mp h
    obtain rfl := Except.ok.inj h
    exact ⟨rfl, key_eq_ok_iff.mp hps⟩
  case «9» =>
    obtain ⟨url, method, headers, body, rfl, hps⟩ := fetch_eq_ok_iff.mp h
    exact ⟨rfl, hps⟩

/-- The parameters of an action are read with the index of its name. -/
lemma action_of_areOf (hnarrow : ∀ e ∈ ps, e.2.IsNarrow) {i : ℕ}
    (hname : Action.names[i]? = some action.name) (hps : ps.AreOf action) :
    Parameters.action i ps = .ok action := by
  cases action with
  | sql verb s vs =>
      cases verb with
      | query =>
          obtain rfl : i = 0 := index_unique hname rfl
          exact sql_eq_ok_iff.mpr ⟨s, vs, rfl, hps⟩
      | first =>
          obtain rfl : i = 1 := index_unique hname rfl
          exact sql_eq_ok_iff.mpr ⟨s, vs, rfl, hps⟩
      | run =>
          obtain rfl : i = 2 := index_unique hname rfl
          exact sql_eq_ok_iff.mpr ⟨s, vs, rfl, hps⟩
  | kvGet k f =>
      obtain rfl : i = 3 := index_unique hname rfl
      exact kvGet_eq_ok_iff.mpr ⟨k, f, rfl, hps⟩
  | kvPut k value lifetime =>
      obtain rfl : i = 4 := index_unique hname rfl
      exact except_bind_eq_ok.mpr ⟨_, (stored_lifetime_eq_ok_iff hnarrow).mpr hps, rfl⟩
  | kvDelete k =>
      obtain rfl : i = 5 := index_unique hname rfl
      exact except_bind_eq_ok.mpr ⟨_, key_eq_ok_iff.mpr hps, rfl⟩
  | r2Get k =>
      obtain rfl : i = 6 := index_unique hname rfl
      exact except_bind_eq_ok.mpr ⟨_, key_eq_ok_iff.mpr hps, rfl⟩
  | r2Put k value contentType =>
      obtain rfl : i = 7 := index_unique hname rfl
      exact except_bind_eq_ok.mpr ⟨_, stored_contentType_eq_ok_iff.mpr hps, rfl⟩
  | r2Delete k =>
      obtain rfl : i = 8 := index_unique hname rfl
      exact except_bind_eq_ok.mpr ⟨_, key_eq_ok_iff.mpr hps, rfl⟩
  | fetch url method headers body =>
      obtain rfl : i = 9 := index_unique hname rfl
      exact fetch_eq_ok_iff.mpr ⟨url, method, headers, body, rfl, hps⟩

/-! ### The name among the parameters

The name of the action is taken out of the parameters before they are read.  It goes by a name that
no parameter has, so that what stands under the others is still there. -/

/-- The parameters besides the name of the action. -/
def others (ps : Parameters) : Parameters := ps.filter (·.1 ≠ "action")

lemma split_eq_ok_iff : ∀ {ps rest : Parameters} {seen : Option ℕ} {i : ℕ},
    split ps seen = .ok (i, rest) ↔
      Found (toVariant Action.names) "action" seen ps (some i) ∧ rest = ps.others
  | [], rest, seen, i => by
      cases seen <;> simp [split, Found, settled_nil, others, eq_comm]
  | (name, b) :: ps, rest, seen, i => by
      by_cases hname : name = "action"
      · subst hname
        have hothers : others (("action", b) :: ps) = others ps := rfl
        rw [hothers, Found, settled_cons_self]
        cases seen with
        | some j => simp [split, bind, Except.bind, throw, throwThe, MonadExceptOf.throw]
        | none =>
            have hsplit : split (("action", b) :: ps) none =
                (b.toVariant Action.names >>= fun j => split ps (some j)) := rfl
            rw [hsplit, except_bind_eq_ok]
            simp only [split_eq_ok_iff, true_and, ← exists_and_right, and_assoc]
      · have hothers : others ((name, b) :: ps) = (name, b) :: others ps := by
          simp [others, hname]
        have hsplit : split ((name, b) :: ps) seen =
            (split ps seen >>= fun r => pure (r.1, (name, b) :: r.2)) := by
          rw [split, if_neg (by simpa using hname)]
        rw [hothers, Found, settled_cons_of_ne hname, hsplit, except_bind_eq_ok]
        constructor
        · rintro ⟨⟨j, rest'⟩, hr, h⟩
          obtain ⟨rfl, rfl⟩ := Prod.mk.inj (Except.ok.inj h)
          obtain ⟨hfound, rfl⟩ := split_eq_ok_iff.mp hr
          exact ⟨hfound, rfl⟩
        · rintro ⟨hfound, rfl⟩
          exact ⟨_, split_eq_ok_iff.mpr ⟨hfound, rfl⟩, rfl⟩

lemma under_others {name : String} (h : name ≠ "action") :
    under name ps.others = under name ps := by
  rw [under, others, List.filterMap_filter]
  refine List.filterMap_congr fun e _ => ?_
  by_cases hname : e.1 = name
  · simp [hname, h]
  · simp [hname]

lemma areOf_others : ps.others.AreOf action ↔ ps.AreOf action := by
  have honce : ∀ {α : Type} {R : Buffered → α → Prop} {name : String} {v : α}, name ≠ "action" →
      (Once R name ps.others v ↔ Once R name ps v) := by
    intro α R name v hname
    rw [Once, Once, under_others hname]
  have honceOr : ∀ {α : Type} {d : α} {R : Buffered → α → Prop} {name : String} {v : α},
      name ≠ "action" → (OnceOr d R name ps.others v ↔ OnceOr d R name ps v) := by
    intro α d R name v hname
    rw [OnceOr, OnceOr, under_others hname, honce hname]
  cases action <;> simp [AreOf, honce, honceOr]

/-- **Parameters are read as the action that they spell.** -/
theorem toAction_eq_ok_iff (hnarrow : ∀ e ∈ ps, e.2.IsNarrow) :
    ps.toAction = .ok action ↔ ps.Spells action := by
  have hnodup : Action.names.Nodup := by decide
  have hname : ∀ {i}, Found (toVariant Action.names) "action" none ps (some i) ↔
      Once (fun b i => ∃ name, Action.names[i]? = some name ∧ IsVariant Action.names b name)
        "action" ps i := found_some_iff fun b _ i => toVariant_eq_ok_iff hnodup
  have hothers : ∀ e ∈ ps.others, e.2.IsNarrow := fun e he => hnarrow e (List.mem_of_mem_filter he)
  rw [toAction, except_bind_eq_ok]
  constructor
  · rintro ⟨⟨i, rest⟩, hsplit, haction⟩
    obtain ⟨hfound, rfl⟩ := split_eq_ok_iff.mp hsplit
    obtain ⟨b, hb, name, hi, hvariant⟩ := hname.mp hfound
    have hlt := (List.getElem?_eq_some_iff.mp hi).1
    obtain ⟨hsame, hps⟩ := areOf_of_action hothers hlt haction
    obtain rfl := Option.some.inj (hi.symm.trans hsame)
    exact ⟨⟨b, hb, hvariant⟩, areOf_others.mp hps⟩
  · rintro ⟨⟨b, hb, hvariant⟩, hps⟩
    obtain ⟨i, hi⟩ := List.mem_iff_getElem?.mp hvariant.mem
    exact ⟨⟨i, ps.others⟩, split_eq_ok_iff.mpr ⟨hname.mpr ⟨b, hb, _, hi, hvariant⟩, rfl⟩,
      action_of_areOf hothers hi (areOf_others.mpr hps)⟩

end

end Parameters

end WorkerGen
