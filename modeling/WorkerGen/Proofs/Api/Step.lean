import Mathlib
import WorkerGen.Proofs.Api.Declarations
import WorkerGen.Proofs.Api.Parameters
import WorkerGen.Proofs.Data.Exact

/-!
# What is read as a step

A step is a mapping with a binding, a name for its result, and the parameters of its action.
`Anchors.WritesStep` says which step a mapping writes, and `Cursor.step_eq_ok_iff` that exactly this
step is read, if the mapping does not nest too deep and there is room for its aliases.

The parameters are buffered before it is known which action they belong to.  So they are held to
what they are as buffered values: an action may be given by its index (`not_refused_actionIndex`),
and a key that belongs to nothing still has to hold a value.

The proof puts three equivalences together.  A node holds the value that is buffered of it; members
are found one after another, whatever their order is (`exists_findsStep_iff`); and parameters are
read as the action that they spell (`Parameters.toAction_eq_ok_iff`).  None of them is about a
particular document.
-/

namespace WorkerGen

open List (Forall₂)
open Reader
open Yaml (Node)

/-! ## Numbers that are buffered

A scalar may be a number of up to 128 bits, while buffered numbers are of 64 bits at most.  A wider
one is refused where it is buffered, even under a key that nobody reads. -/

/-- Whether the numbers of 64 bits that are meant are as narrow as that. -/
def Yaml.Meaning.IsNarrow : Yaml.Meaning → Prop
  | .natural n => n < 2 ^ 64
  | .negative n => n ≤ 0
  | _ => True

lemma Yaml.Meaning.isNarrow_of_integer {s : List Char} {meaning : Yaml.Meaning}
    (h : integer? s = some meaning) : meaning.IsNarrow := by
  rw [integer?] at h
  split at h
  · split_ifs at h with hn hwide <;> obtain rfl := Option.some.inj h
    · exact hn
    · trivial
  · split_ifs at h with hn hwide <;> obtain rfl := Option.some.inj h
    · simp [IsNarrow]
    · trivial
  · exact absurd h (by simp)

lemma Yaml.Meaning.isNarrow_ofPlain (text : String) : (ofPlain text).IsNarrow := by
  unfold ofPlain
  dsimp only
  split
  · trivial
  split
  · trivial
  split
  · next n h => exact isNarrow_of_integer h
  split <;> trivial

lemma Cursor.isNarrow_of_scalarMeaning {tag : Option Yaml.Tag} {style : Yaml.Style} {s : String}
    {meaning : Yaml.Meaning} (h : scalarMeaning tag style s = .ok meaning) : meaning.IsNarrow := by
  unfold scalarMeaning at h
  dsimp only at h
  split at h
  · split at h
    · next m hm =>
      obtain ⟨b, -, rfl⟩ := Option.map_eq_some_iff.mp hm
      rw [← Except.ok.inj h]
      trivial
    · exact absurd h (by simp)
  · split at h
    · next m hm => exact Except.ok.inj h ▸ Yaml.Meaning.isNarrow_of_integer hm
    · exact absurd h (by simp)
  · split at h
    · next m hm =>
      obtain ⟨x, -, rfl⟩ := Option.map_eq_some_iff.mp hm
      rw [← Except.ok.inj h]
      trivial
    · exact absurd h (by simp)
  · split at h
    · next m hm =>
      split_ifs at hm
      rw [← Except.ok.inj h, ← Option.some.inj hm]
      trivial
    · exact absurd h (by simp)
  · rw [← Except.ok.inj h]
    trivial
  · rw [← Except.ok.inj h]
    split_ifs
    · exact Yaml.Meaning.isNarrow_ofPlain s
    · trivial

lemma Buffered.isNarrow_of_ofMeaning {meaning : Yaml.Meaning} {b : Buffered}
    (hmeaning : meaning.IsNarrow) (h : ofMeaning meaning = .ok b) : b.IsNarrow := by
  cases meaning with
  | wideNatural | wideNegative => exact absurd h (by simp [ofMeaning])
  | natural | negative =>
      rw [← Except.ok.inj h]
      exact hmeaning
  | _ =>
      rw [← Except.ok.inj h]
      trivial

/-- Numbers that are held are narrow. -/
lemma Anchors.Holds.isNarrow {a : Anchors} {depth : ℕ} {node : Node} {b : Buffered}
    (h : a.Holds depth node b) : b.IsNarrow := by
  cases h with
  | scalar behind known means narrow =>
      exact Buffered.isNarrow_of_ofMeaning (Cursor.isNarrow_of_scalarMeaning means) narrow
  | _ => trivial

/-! ## Steps

What has been found before a member decides whether it may come: a binding, or a name for the
result, comes once at most, and parameters come in any number and are told apart later.  `FindsStep`
is what has been found of some members, and it does not depend on the order of those that belong to
different fields. -/

/-- Whether a member of a step is a parameter of its action. -/
def IsParameter (e : String × Node) : Prop := e.1 ≠ "binding" ∧ e.1 ≠ "as"

instance : DecidablePred IsParameter := fun _ => inferInstanceAs (Decidable (_ ∧ _))

namespace Anchors

variable {a : Anchors} {depth : ℕ}

/-- Whether a mapping with some members writes a step: its binding and the name of its result are
texts or nothing, and the other members hold the parameters that spell its action. -/
structure WritesStep (a : Anchors) (depth : ℕ) (members : List (String × Node)) (s : StepEntry) :
    Prop where
  binding : OnceOr none (fun node => (a.follow node).IsTextOrNull) "binding" members s.binding
  result : OnceOr none (fun node => (a.follow node).IsTextOrNull) "as" members s.result
  action : ∃ ps : Parameters, Forall₂ (fun e p => e.1 = p.1 ∧ a.Holds depth e.2 p.2)
    (members.filter IsParameter) ps ∧ ps.Spells s.action

end Anchors

namespace Cursor

variable {α : Type} {a : Anchors} {depth : ℕ} {path : DataPath}

lemma gives_readField {name : String} {seen : Option α} {x : Reader α} {P : α → Prop} {k : ℕ}
    (h : Gives a x P k) :
    Gives a (Format.document.readField name seen x)
      (fun found => seen = none ∧ ∃ v, P v ∧ found = some v) k := by
  cases seen with
  | none => exact h.map.congr fun found => by simp
  | some v =>
      have hfail : Gives a (Format.document.readField name (some v) x) (fun _ => False) (0 + k) :=
        ((Gives.failWith (k := 0) fun _ => id).bind (R := fun _ _ => False)
          (fun _ h => h.elim)).congr fun _ => by simp
      exact hfail.of_false fun found => by simp

/-! ### What is found of the members

The fields of a step are found in whatever order they come.  What has been found is described for
some of the members first, newest parameters in front, and for all of them it is what they write. -/

/-- What is found of the members of a step. -/
structure FindsStep (a : Anchors) (depth : ℕ) (f : StepFields) (members : List (String × Node))
    (g : StepFields) : Prop where
  binding : Settled (fun node => (a.follow node).IsTextOrNull) "binding" f.binding members g.binding
  result : Settled (fun node => (a.follow node).IsTextOrNull) "as" f.result members g.result
  parameters : ∃ ps : Parameters, Forall₂ (fun e p => e.1 = p.1 ∧ a.Holds depth e.2 p.2)
    (members.filter IsParameter) ps ∧ g.parameters = ps.reverse ++ f.parameters

section
variable {f g : StepFields} {node : Node} {name : String} {rest : List (String × Node)}

lemma findsStep_nil : FindsStep a depth f [] g ↔ g = f := by
  obtain ⟨b, r, ps⟩ := f
  obtain ⟨b', r', ps'⟩ := g
  constructor
  · rintro ⟨hb, hr, _, hps, heq⟩
    obtain rfl := List.forall₂_nil_left_iff.mp hps
    rw [StepFields.mk.injEq]
    exact ⟨settled_nil.mp hb, settled_nil.mp hr, heq⟩
  · intro h
    obtain ⟨rfl, rfl, rfl⟩ := StepFields.mk.inj h
    exact ⟨settled_nil.mpr rfl, settled_nil.mpr rfl, [], .nil, rfl⟩

lemma findsStep_binding : FindsStep a depth f (("binding", node) :: rest) g ↔
    ∃ t, (f.binding = none ∧ ∃ o, (a.follow node).IsTextOrNull o ∧
      t = { f with binding := some o }) ∧ FindsStep a depth t rest g := by
  constructor
  · rintro ⟨hb, hr, hps⟩
    obtain ⟨hnone, o, ho, hb⟩ := settled_cons_self.mp hb
    exact ⟨_, ⟨hnone, o, ho, rfl⟩, hb, (settled_cons_of_ne (by decide)).mp hr, hps⟩
  · rintro ⟨_, ⟨hnone, o, ho, rfl⟩, hb, hr, hps⟩
    exact ⟨settled_cons_self.mpr ⟨hnone, o, ho, hb⟩, (settled_cons_of_ne (by decide)).mpr hr, hps⟩

lemma findsStep_result : FindsStep a depth f (("as", node) :: rest) g ↔
    ∃ t, (f.result = none ∧ ∃ o, (a.follow node).IsTextOrNull o ∧
      t = { f with result := some o }) ∧ FindsStep a depth t rest g := by
  constructor
  · rintro ⟨hb, hr, hps⟩
    obtain ⟨hnone, o, ho, hr⟩ := settled_cons_self.mp hr
    exact ⟨_, ⟨hnone, o, ho, rfl⟩, (settled_cons_of_ne (by decide)).mp hb, hr, hps⟩
  · rintro ⟨_, ⟨hnone, o, ho, rfl⟩, hb, hr, hps⟩
    exact ⟨(settled_cons_of_ne (by decide)).mpr hb, settled_cons_self.mpr ⟨hnone, o, ho, hr⟩, hps⟩

lemma findsStep_parameter (hbinding : name ≠ "binding") (hresult : name ≠ "as") :
    FindsStep a depth f ((name, node) :: rest) g ↔
      ∃ t, (∃ b, a.Holds depth node b ∧ t = { f with parameters := (name, b) :: f.parameters }) ∧
        FindsStep a depth t rest g := by
  have hfilter : ((name, node) :: rest).filter IsParameter
      = (name, node) :: rest.filter IsParameter :=
    List.filter_cons_of_pos (by simpa using ⟨hbinding, hresult⟩)
  constructor
  · rintro ⟨hb, hr, ps, hps, heq⟩
    rw [hfilter] at hps
    obtain ⟨⟨_, b⟩, ps', ⟨rfl, hb'⟩, hps', rfl⟩ := List.forall₂_cons_left_iff.mp hps
    refine ⟨_, ⟨b, hb', rfl⟩, (settled_cons_of_ne hbinding).mp hb,
      (settled_cons_of_ne hresult).mp hr, ps', hps', ?_⟩
    rw [heq, List.reverse_cons, List.append_assoc, List.singleton_append]
  · rintro ⟨_, ⟨b, hb', rfl⟩, hb, hr, ps, hps, heq⟩
    refine ⟨(settled_cons_of_ne hbinding).mpr hb, (settled_cons_of_ne hresult).mpr hr,
      (name, b) :: ps, ?_, ?_⟩
    · rw [hfilter]
      exact .cons ⟨rfl, hb'⟩ hps
    · rw [heq, List.reverse_cons, List.append_assoc, List.singleton_append]

/-- The members of a step are found one after another. -/
lemma findsStep_cons : FindsStep a depth f ((name, node) :: rest) g ↔
    ∃ t, FindsStep a depth f [(name, node)] t ∧ FindsStep a depth t rest g := by
  by_cases hbinding : name = "binding"
  · subst hbinding
    simp only [findsStep_binding, findsStep_nil, exists_eq_right']
  by_cases hresult : name = "as"
  · subst hresult
    simp only [findsStep_result, findsStep_nil, exists_eq_right']
  · simp only [findsStep_parameter hbinding hresult, findsStep_nil, exists_eq_right']

/-- What is found of all members makes the step that they write. -/
lemma exists_findsStep_iff {members : List (String × Node)} {s : StepEntry} :
    (∃ g, FindsStep a depth ⟨none, none, []⟩ members g ∧
      ∃ action, Parameters.toAction g.parameters.reverse = .ok action ∧
        s = ⟨g.binding.getD none, g.result.getD none, action⟩) ↔ a.WritesStep depth members s := by
  have hnarrow : ∀ {written : List (String × Node)} {ps : Parameters},
      Forall₂ (fun e p => e.1 = p.1 ∧ a.Holds depth e.2 p.2) written ps →
        ∀ p ∈ ps, p.2.IsNarrow := by
    intro written ps h
    induction h with
    | nil => simp
    | cons hheld _ ih => exact List.forall_mem_cons.mpr ⟨hheld.2.isNarrow, ih⟩
  constructor
  · rintro ⟨⟨b, r, held⟩, ⟨hb, hr, ps, hps, heq⟩, action, haction, rfl⟩
    obtain rfl : held = ps.reverse := by simpa using heq
    rw [List.reverse_reverse, Parameters.toAction_eq_ok_iff (hnarrow hps)] at haction
    exact ⟨exists_settled_iff.mp ⟨b, hb, rfl⟩, exists_settled_iff.mp ⟨r, hr, rfl⟩, ps, hps, haction⟩
  · rintro ⟨hb, hr, ps, hps, haction⟩
    obtain ⟨b, hb, hbinding⟩ := exists_settled_iff.mpr hb
    obtain ⟨r, hr, hresult⟩ := exists_settled_iff.mpr hr
    refine ⟨⟨b, r, ps.reverse⟩, ⟨hb, hr, ps, hps, by simp⟩, s.action, ?_, ?_⟩
    · rwa [List.reverse_reverse, Parameters.toAction_eq_ok_iff (hnarrow hps)]
    · rw [← hbinding, ← hresult]

/-! ### Mappings

The members of a mapping are read one by one, each with the aliases in it, and what is found of all
of them is a step just if its action can be read. -/

/-- A member is read into what has been found before. -/
lemma gives_stepField (hdirect : a.IsDirect) :
    Gives a (Format.document.stepField f name ⟨node, path, depth⟩)
      (fun t => FindsStep a depth f [(name, node)] t) (a.aliases depth node) := by
  have htext : Gives a (optionalText ⟨node, path, depth⟩) (a.follow node).IsTextOrNull
      (a.aliases depth node) := gives_optional_text hdirect "a string"
  rw [Format.stepField]
  by_cases hbinding : name = "binding"
  · subst hbinding
    refine (gives_readField htext).map.congr fun t => ?_
    simp only [findsStep_binding, findsStep_nil]
    grind
  by_cases hresult : name = "as"
  · subst hresult
    refine (gives_readField htext).map.congr fun t => ?_
    simp only [findsStep_result, findsStep_nil]
    grind
  · rw [if_neg (by simpa using hbinding), if_neg (by simpa using hresult)]
    refine Buffered.gives_read.map.congr fun t => ?_
    simp only [findsStep_parameter hbinding hresult, findsStep_nil]
    grind

/-- What is found of all members, if every key is a text. -/
lemma gives_readFields (hdirect : a.IsDirect) : ∀ {entries : List (Node × Node)}
    (_ : ∀ e ∈ entries, (a.name? e.1).isSome) {f : StepFields},
    Gives a (readEntries path depth "field identifier" Format.document.stepField f entries)
      (FindsStep a depth f (entries.filterMap fun e => (a.name? e.1).map (·, e.2)))
      (entries.map fun e => a.aliases depth e.1 + a.aliases depth e.2).sum
  | [], _, f => (Gives.pure f).congr fun g => findsStep_nil
  | (key, value) :: rest, hkeys, f => by
      obtain ⟨hkey, hrest⟩ := List.forall_mem_cons.mp hkeys
      obtain ⟨name, hname⟩ := Option.isSome_iff_exists.mp hkey
      obtain ⟨start, tag, style, hbehind⟩ := Anchors.name?_eq_some_iff.mp hname
      have htext : Gives a (text "field identifier" ⟨key, path, depth⟩) (· = name)
          (a.aliases depth key) :=
        (gives_text "field identifier").congr fun s => by simp [hbehind, eq_comm]
      rw [List.filterMap_cons_some (by rw [hname, Option.map_some]), readEntries, List.map_cons,
        List.sum_cons, Nat.add_assoc]
      refine (htext.bind_of_eq ((gives_stepField hdirect).bind fun t _ =>
        gives_readFields hdirect hrest)).congr fun g => findsStep_cons

end

section
variable {c : Cursor} {n m start : ℕ} {tag : Option Yaml.Tag} {entries : List (Node × Node)}
  {s : StepEntry}

/-- **What is read as a step**, where a mapping is written with texts for keys: the step that it
writes, if there is room for the aliases in it.  That no alias refers to another one holds of every
document (`Yaml.Document.isDirect_of_parse`). -/
theorem step_eq_ok_iff (hdirect : a.IsDirect)
    (hmapping : a.follow c.node = .mapping start tag entries)
    (hkeys : ∀ e ∈ entries, (a.name? e.1).isSome) (hdepth : c.depth = depth + 1) :
    c.step a n = .ok (s, m) ↔ a.WritesStep depth (a.members c.node) s ∧
      m = n + a.aliases c.depth c.node ∧
        (a.aliases c.depth c.node = 0 ∨ n + a.aliases c.depth c.node ≤ a.limit) := by
  suffices h : Gives a c.step (a.WritesStep depth (a.members c.node)) (a.aliases c.depth c.node) by
    exact @h n m s
  have hcount : a.aliases c.depth c.node = c.node.ownAliases +
      (0 + ((entries.map fun e => a.aliases depth e.1 + a.aliases depth e.2).sum + (0 + 0))) := by
    rw [hdepth]
    simp only [Anchors.aliases, hmapping, Nat.add_zero, Nat.zero_add]
  have hmembers : a.members c.node = entries.filterMap fun e => (a.name? e.1).map (·, e.2) := by
    rw [Anchors.members, hmapping]
  rw [hcount, hmembers]
  refine gives_resolve.bind_of_eq (Gives.placing ?_)
  rw [hmapping, hdepth]
  refine Gives.bind_of_eq (Gives.pure depth) ?_
  exact ((gives_readFields hdirect hkeys).bind fun g _ => (Gives.orFail _).map).congr fun s =>
    exists_findsStep_iff.symm

end

/-- A step with a binding, an optional parameter, and a member that belongs to nothing and is
written as an alias. -/
def storingStep : Node := .mapping 0 none
  [(.scalar 0 none .plain "key", .scalar 5 none .doubleQuoted "k"),
    (.scalar 9 none .plain "note", .alias 15 7),
    (.scalar 17 none .plain "action", .scalar 25 none .plain "kv.put"),
    (.scalar 32 none .plain "value", .mapping 39 none
      [(.scalar 40 none .plain "a", .scalar 43 none .plain "~")]),
    (.scalar 46 none .plain "ttl", .scalar 51 none .plain "60"),
    (.scalar 54 none .plain "binding", .scalar 63 none .plain "B")]

theorem step_eq_ok_iff_storingStep :
    step ⟨storingStep, .root, 123⟩ ⟨[(7, .sequence 0 none [])], 100⟩ 0
      = .ok (⟨some "B", none, .kvPut "k" (.object [("a", .null)]) (some 60)⟩, 1) := by
  have hdirect : Anchors.IsDirect ⟨[(7, .sequence 0 none [])], 100⟩ :=
    Anchors.isDirect_of_forall (by simp)
  have hvalue : Buffered.Denotes (.map [(.text "a", .null)]) (.object [("a", .null)]) :=
    Buffered.toJson_eq_ok_iff.mp rfl
  have hholds : ∀ {depth start tag style text meaning b}, tag ≠ some Yaml.Tag.custom →
      scalarMeaning tag style text = .ok meaning → Buffered.ofMeaning meaning = .ok b →
      Anchors.Holds ⟨[(7, .sequence 0 none [])], 100⟩ depth (.scalar start tag style text) b :=
    fun hknown => Anchors.Holds.scalar rfl hknown
  refine (step_eq_ok_iff hdirect rfl (by decide) rfl).mpr ⟨⟨?_, ?_, ?_⟩, rfl, by decide⟩
  · refine .inr ⟨.scalar 63 none .plain "B", rfl, .inr ⟨?_, 63, none, .plain, "B", rfl, ?_, rfl⟩⟩
    · simp [Anchors.follow, Node.IsNothing, Yaml.Meaning.isNullWord]
    · simp
  · exact .inl ⟨rfl, rfl⟩
  · refine ⟨[("key", .text "k"), ("note", .sequence []), ("action", .text "kv.put"),
      ("value", .map [(.text "a", .null)]), ("ttl", .natural 60)], ?_, ?_, ?_⟩
    · refine .cons ⟨rfl, hholds (by simp) rfl rfl⟩ <| .cons ⟨rfl, ?_⟩ <|
        .cons ⟨rfl, hholds (by simp) rfl rfl⟩ <| .cons ⟨rfl, ?_⟩ <|
        .cons ⟨rfl, hholds (by simp) rfl rfl⟩ .nil
      · exact .sequence rfl (by simp) rfl (by simp)
      · exact .mapping rfl (by simp) rfl (List.forall_mem_singleton.mpr (hholds (by simp) rfl rfl))
          (List.forall_mem_singleton.mpr (hholds (by simp) rfl rfl))
    · exact ⟨_, rfl, .inl ⟨rfl, by decide⟩⟩
    · exact ⟨⟨_, rfl, rfl⟩, ⟨_, rfl, hvalue⟩, .inr ⟨_, rfl, .inr ⟨by simp, 60, .inl rfl, rfl⟩⟩⟩

/-- A document with a step whose action is a number. -/
def actionIndex : String :=
  "paths:\n  /a:\n    get:\n      x-operations:\n        - action: 0\n          sql: x\n"

/-- A document with a step that has a wide number under a key that belongs to nothing. -/
def wideNote : String :=
  "paths:\n  /a:\n    get:\n      x-operations:\n        - action: fetch\n          url: x\n" ++
    "          note: 99999999999999999999\n"

/-- **A number is taken for an action**, and a member that belongs to nothing is not ignored. -/
theorem not_refused_actionIndex :
    (Api.parse actionIndex).toOption.map (·.operations) = some [("/a", .get,
      ⟨none, none, some [⟨none, none, .sql .query "x" []⟩], none⟩)] ∧
    Api.parse wideNote = .error (.data (.fault
      (.invalidType (.unsigned128 99999999999999999999) "any value") (some
        ⟨(((((DataPath.root.key "paths").key "/a").key "get").key "x-operations").item 0).key
          "note", 99⟩))) := by
  constructor
  · decide +kernel
  · decide +kernel

end Cursor

end WorkerGen
