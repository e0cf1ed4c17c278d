import Mathlib
import WorkerGen.Proofs.Api.Unplaced
import WorkerGen.Proofs.Yaml.Dotted

/-!
# Versions with and without quotes

A description has two versions, that of its format and that of what it describes, and either may be
written as a number.  This file compares a document in which a version of digits and dots has no
quotes with the same document in which it has some.

* Two such documents differ in one scalar, which stands in a `Slot` of a mapping, or in a slot
  within a slot (`IsHole`).
* Reading a record with a slot reads the slot and puts that into what the other entries give, which
  does not depend on it (`puts_record`).

So the quoted version is read as it is written, and the other description is the same but for the
version, which is what `ReadsAs` says (`parse_unquoted_iff`).

The documents are given as texts, and only what they parse to is compared, with its places left out,
since quotes move all that comes after them.  No anchor stands on the version or around it: with
one, the version could be read a second time elsewhere, and the two descriptions would differ there
too.

What a version without quotes is read as is a matter of numbers alone.  The text is kept if it is no
number, or if the number is written again as the text was; that a final zero is lost is one case of
it (`not_kept_oneTen`).
-/

namespace WorkerGen

open Reader
open Yaml (Node Tag)

/-! ## Where a version stands

A document with an open place is a function from nodes to nodes, made of the mappings around it. -/

/-- The versions that a description has. -/
inductive VersionField where
  /-- The version of the format. -/
  | openapi
  /-- The version of what is described. -/
  | info

namespace VersionField

/-- The version in a description. -/
def of : VersionField → Api → Option String
  | openapi, api => api.openapi
  | info, api => api.info.version

/-- The description with another version. -/
def write (version : String) : VersionField → Api → Api
  | openapi, api => { api with openapi := some version }
  | info, api => { api with info := { api.info with version := some version } }

@[simp]
lemma of_write (field : VersionField) (s : String) (api : Api) :
    field.of (field.write s api) = some s := by
  cases field <;> rfl

@[simp]
lemma write_write (field : VersionField) (s t : String) (api : Api) :
    field.write s (field.write t api) = field.write s api := by
  cases field <;> rfl

end VersionField

/-- A mapping with a key whose value is open. -/
structure Slot where
  tag : Option Tag
  before : List (Node × Node)
  keyTag : Option Tag
  keyStyle : Yaml.Style
  name : String
  after : List (Node × Node)

/-- The mapping with a value under the key. -/
def Slot.fill (s : Slot) (value : Node) : Node :=
  .mapping 0 s.tag (s.before ++ (.scalar 0 s.keyTag s.keyStyle s.name, value) :: s.after)

/-- Whether a document is open where one of its versions stands. -/
inductive VersionField.IsHole : VersionField → (Node → Node) → Prop
  | openapi {top : Slot} (name : top.name = "openapi") : IsHole openapi top.fill
  | info {top within : Slot} (outer : top.name = "info") (inner : within.name = "version") :
      IsHole info fun value => top.fill (within.fill value)

/-- Whether two documents are the same, places aside, but for a version that stands without quotes
in the first and within quotes in the second.  No anchor stands on the version or around it. -/
def VersionField.Quotes (field : VersionField) (version : String) (d quoted : Yaml.Document) :
    Prop :=
  ∃ hole anchored, field.IsHole hole ∧
    d.unplaced = ⟨some (hole (.scalar 0 none .plain version)), anchored⟩ ∧
    quoted.unplaced = ⟨some (hole (.scalar 0 none .doubleQuoted version)), anchored⟩

/-- Whether a text, which is not blank, is read as a document. -/
structure Yaml.Document.IsWritten (d : Yaml.Document) (text : String) : Prop where
  inked : text.toList.all Text.isBlank = false
  parse : Yaml.Document.parse text = .ok d

lemma Yaml.Document.IsWritten.parse_eq_ok_iff {d : Yaml.Document} {text : String}
    (h : d.IsWritten text) {api : Api} : Api.parse text = .ok api ↔ Api.ofDocument d = .ok api := by
  rw [Api.parse, h.inked, if_neg Bool.false_ne_true, h.parse]

/-! ## Reading a slot

Entries are read in their order, those before the slot, the slot itself, and those behind it. -/

namespace Cursor

variable {α β σ τ : Type} {a : Anchors}

lemma outcome_readEntries_append {path : DataPath} {depth : ℕ} {keyExpected : String}
    {step : σ → String → Cursor → Reader σ} {entries rest : List (Node × Node)} :
    ∀ {f : σ}, outcome a (readEntries path depth keyExpected step f (entries ++ rest))
      = outcome a (readEntries path depth keyExpected step f entries) >>= fun r =>
        outcome a (readEntries path depth keyExpected step r rest) := by
  induction entries with
  | nil =>
      intro f
      rw [readEntries, outcome_pure, pure_bind]
      rfl
  | cons e entries ih =>
      intro f
      simp only [List.cons_append, readEntries, outcome_bind, ih, bind_assoc]

/-- The outcome of reading a record with a slot, in the order of its entries. -/
lemma outcome_record_fill {name : String} {init : σ} {field : σ → String → Cursor → Reader σ}
    {finish : σ → Reader α} {s : Slot} {value : Node} {path : DataPath} {depth : ℕ} :
    outcome a (record name init field finish ⟨s.fill value, path, depth + 1⟩) =
      outcome a (readEntries path depth "field identifier" field init s.before) >>= fun f =>
        outcome a (field f s.name ⟨value, path.key s.name, depth⟩) >>= fun f =>
          outcome a (readEntries path depth "field identifier" field f s.after) >>= fun f =>
            outcome a (finish f) := by
  have hread : record name init field finish ⟨s.fill value, path, depth + 1⟩
      = placing ⟨s.fill value, path, depth + 1⟩
          (readEntries path depth "field identifier" field init
          (s.before ++ (.scalar 0 s.keyTag s.keyStyle s.name, value) :: s.after) >>= finish) := rfl
  have hkey : ∀ f, outcome a (readEntries path depth "field identifier" field f
      ((.scalar 0 s.keyTag s.keyStyle s.name, value) :: s.after)) =
        outcome a (field f s.name ⟨value, path.key s.name, depth⟩) >>= fun f =>
          outcome a (readEntries path depth "field identifier" field f s.after) := by
    intro f
    simp only [readEntries, outcome_bind]
    rfl
  simp only [hread, outcome_placing, outcome_bind, outcome_readEntries_append, hkey, bind_assoc]

/-! ## What a slot changes

`Puts` is about all nodes that could stand in a slot at once.  One outcome is given that does not
depend on the node, and the version is put into it; if the node is no version the reading fails,
whatever the rest is. -/

/-- Reads the entries behind a slot. -/
lemma exists_outcome_readEntries {put : String → τ → σ} {path : DataPath} {depth : ℕ}
    {keyExpected : String} {step : σ → String → Cursor → Reader σ}
    (hstep : ∀ x name c, ∃ g : StateT ℕ Option τ, ∀ v,
      outcome a (step (put v x) name c) = put v <$> g) (entries : List (Node × Node)) :
    ∀ x, ∃ g : StateT ℕ Option τ, ∀ v,
      outcome a (readEntries path depth keyExpected step (put v x) entries) = put v <$> g := by
  induction entries with
  | nil =>
      intro x
      refine ⟨pure x, fun v => ?_⟩
      rw [readEntries, outcome_pure, map_pure]
  | cons e rest ih =>
      obtain ⟨key, value⟩ := e
      intro x
      choose one hone using fun name => hstep x name ⟨value, valuePath path key, depth⟩
      choose others hothers using ih
      refine ⟨outcome a (text keyExpected ⟨key, path, depth⟩) >>= fun name =>
        one name >>= others, fun v => ?_⟩
      simp only [readEntries, outcome_bind, hone, hothers, map_bind, bind_map_left]

/-- Whether a node is read as a version, or as none because that is an error. -/
def IsVersion (value : Node) (version : Option String) : Prop :=
  ∀ a path depth, outcome a (lenientText ⟨value, path, depth⟩)
    = version.elim failure fun s => pure (some s)

/-- Whether the outcomes for nodes are one outcome, into which the versions of the nodes are put. -/
def Puts (put : String → τ → σ) (x : Node → StateT ℕ Option σ) : Prop :=
  ∃ g : StateT ℕ Option τ, ∀ value version, IsVersion value version →
    x value = version.elim failure fun s => put s <$> g

lemma bind_failure (x : StateT ℕ Option α) :
    (x >>= fun _ => (failure : StateT ℕ Option β)) = failure := by
  funext n
  have hbind : (x >>= fun _ => (failure : StateT ℕ Option β)) n = (x n).bind fun _ => none := rfl
  rw [hbind]
  cases x n <;> rfl

/-- **A record with a slot** has what the slot gives put into what the other entries give. -/
lemma puts_record (put : String → τ → σ) (put' : String → β → α) (fin : τ → β) (inner : Node → Node)
    {name : String} {init : σ} {field : σ → String → Cursor → Reader σ} {finish : σ → Reader α}
    {s : Slot}
    (hslot : ∀ f path depth, Puts put fun value =>
      outcome a (field f s.name ⟨inner value, path, depth⟩))
    (hfield : ∀ x name c, ∃ g : StateT ℕ Option τ, ∀ v,
      outcome a (field (put v x) name c) = put v <$> g)
    (hfinish : ∀ x v, finish (put v x) = pure (put' v (fin x))) (path : DataPath) (depth : ℕ) :
    Puts put' fun value =>
      outcome a (record name init field finish ⟨s.fill (inner value), path, depth⟩) := by
  cases depth with
  | zero =>
      refine ⟨failure, fun value version _ => ?_⟩
      cases version <;> rfl
  | succ depth =>
      have hafter : ∀ x, ∃ g : StateT ℕ Option τ, ∀ v, outcome a
          (readEntries path depth "field identifier" field (put v x) s.after) = put v <$> g :=
        exists_outcome_readEntries hfield s.after
      choose slot hslot using fun f => hslot f (path.key s.name) depth
      choose others hothers using hafter
      refine ⟨outcome a (readEntries path depth "field identifier" field init s.before) >>= fun f =>
        slot f >>= fun x => others x >>= fun y => pure (fin y), fun value version hversion => ?_⟩
      have hvalue := fun f => hslot f value version hversion
      dsimp only at hvalue ⊢
      rw [outcome_record_fill]
      cases version with
      | none =>
          simp only [hvalue, Option.elim_none]
          exact bind_failure _
      | some v =>
          simp only [hvalue, Option.elim_some, bind_map_left, hothers, hfinish, outcome_pure,
            map_bind, map_pure]

/-- A field in which a node is read. -/
lemma puts_readField {put : String → τ → σ} {put' : String → β → α} {read : Node → Reader α}
    {name : String} {seen : Option α} {keep : Option α → σ} (join : β → τ)
    (hread : Puts put' fun value => outcome a (read value))
    (hkeep : ∀ v y, keep (some (put' v y)) = put v (join y)) :
    Puts put fun value =>
      outcome a (do return keep (← Format.document.readField name seen (read value))) := by
  obtain ⟨g, hg⟩ := hread
  refine ⟨if seen.isSome then failure else join <$> g, fun value version hversion => ?_⟩
  have hvalue := hg value version hversion
  dsimp only at hvalue ⊢
  rw [outcome_bind, outcome_readField, hvalue]
  split_ifs
  · cases version <;> rfl
  · cases version with
    | none => rfl
    | some v =>
        simp only [Option.elim_some, outcome_pure, map_eq_pure_bind, bind_assoc, pure_bind, hkeep]

/-- A field that is read beside a version. -/
lemma exists_outcome_readField {put : String → τ → σ} {name : String} {seen : Option α}
    {read : Reader α} {keep : String → Option α → σ} (keep' : Option α → τ)
    (hkeep : ∀ v y, keep v y = put v (keep' y)) : ∃ g : StateT ℕ Option τ, ∀ v,
      outcome a (do return keep v (← Format.document.readField name seen read)) = put v <$> g := by
  refine ⟨(if seen.isSome then failure else some <$> outcome a read) >>= fun y => pure (keep' y),
    fun v => ?_⟩
  rw [outcome_bind, outcome_readField, map_bind]
  simp only [outcome_pure, map_pure, hkeep]

/-! ## Versions

The reader of versions takes a text or a number, and makes a text of either. -/

lemma puts_lenientText (path : DataPath) (depth : ℕ) :
    Puts (fun v (_ : Unit) => some v) fun value =>
      outcome a (lenientText ⟨value, path, depth⟩) := by
  refine ⟨pure (), fun value version hversion => (hversion a path depth).trans ?_⟩
  cases version <;> rfl

lemma puts_info {within : Slot} (hname : within.name = "version") (path : DataPath) (depth : ℕ) :
    Puts (fun v (i : Info) => { i with version := some v }) fun value =>
      outcome a (info ⟨within.fill value, path, depth⟩) := by
  refine puts_record (fun v (f : InfoFields) => { f with version := some (some v) }) _
    (fun f => ⟨f.title.getD none, f.version.getD none, f.description.getD none⟩) id
    (fun f path depth => ?_) (fun f name c => ?_) (fun _ _ => rfl) path depth
  · rw [hname]
    exact puts_readField (fun _ => f) (puts_lenientText path depth) fun _ _ => rfl
  · split_ifs
    · exact exists_outcome_readField (fun y => { f with title := y }) fun _ _ => rfl
    · exact ⟨failure, fun _ => rfl⟩
    · exact exists_outcome_readField (fun y => { f with description := y }) fun _ _ => rfl
    · exact ⟨pure f, fun _ => rfl⟩

lemma puts_api {field : VersionField} {hole : Node → Node} (h : field.IsHole hole) (path : DataPath)
    (depth : ℕ) : Puts (fun v => field.write v) fun value =>
      outcome a (api ⟨hole value, path, depth⟩) := by
  cases h with
  | @openapi top hname =>
      refine puts_record (fun v (f : ApiFields) => { f with openapi := some (some v) }) _
        (fun f => ⟨f.openapi.getD none, f.info.getD default, f.paths.getD .empty,
          f.defaults.getD default⟩) id
        (fun f path depth => ?_) (fun f name c => ?_) (fun _ _ => rfl) path depth
      · rw [hname]
        exact puts_readField (fun _ => f) (puts_lenientText path depth) fun _ _ => rfl
      · split_ifs
        · exact ⟨failure, fun _ => rfl⟩
        · exact exists_outcome_readField (fun y => { f with info := y }) fun _ _ => rfl
        · exact exists_outcome_readField (fun y => { f with paths := y }) fun _ _ => rfl
        · exact exists_outcome_readField (fun y => { f with defaults := y }) fun _ _ => rfl
        · exact ⟨pure f, fun _ => rfl⟩
  | @info top within houter hinner =>
      -- The fields so far are kept with the information that has been read.
      refine puts_record (fun v (x : ApiFields × Info) =>
          { x.1 with info := some { x.2 with version := some v } }) _
        (fun x => ⟨x.1.openapi.getD none, x.2, x.1.paths.getD .empty, x.1.defaults.getD default⟩)
        within.fill (fun f path depth => ?_) (fun x name c => ?_) (fun _ _ => rfl) path depth
      · rw [houter]
        exact puts_readField (fun i => (f, i)) (puts_info hinner path depth) fun _ _ => rfl
      · split_ifs
        · exact exists_outcome_readField (fun y => ({ x.1 with openapi := y }, x.2)) fun _ _ => rfl
        · exact ⟨failure, fun _ => rfl⟩
        · exact exists_outcome_readField (fun y => ({ x.1 with paths := y }, x.2)) fun _ _ => rfl
        · exact exists_outcome_readField (fun y => ({ x.1 with defaults := y }, x.2)) fun _ _ => rfl
        · exact ⟨pure x, fun _ => rfl⟩

lemma outcome_json_scalar {start : ℕ} {style : Yaml.Style} {t : String} {path : DataPath}
    {depth : ℕ} : outcome a (json ⟨.scalar start none style t, path, depth⟩)
      = outcome a (orFail ((scalarMeaning none style t).bind meaningJson)) := by
  have hresolve : resolve ⟨.scalar start none style t, path, depth⟩
      = pure ⟨.scalar start none style t, path, depth⟩ := rfl
  rw [json, jsonWithin, hresolve, pure_bind, outcome_placing]
  rfl

/-- Within quotes, a version is its own text. -/
lemma isVersion_quoted (t : String) : IsVersion (.scalar 0 none .doubleQuoted t) (some t) := by
  intro a path depth
  have hread : Format.document.optional Format.document.json
      ⟨.scalar 0 none .doubleQuoted t, path, depth⟩
      = some <$> json ⟨.scalar 0 none .doubleQuoted t, path, depth⟩ := rfl
  rw [lenientText, Format.lenientText, outcome_bind, hread, outcome_map, outcome_json_scalar]
  rfl

/-- Without quotes, it is what is written for its meaning. -/
lemma isVersion_plain {t : String} (ht : IsDotted t.toList) : IsVersion (.scalar 0 none .plain t)
    ((Yaml.Meaning.ofPlain t).written?.map String.ofList) := by
  intro a path depth
  have hempty : t.isEmpty = false := by
    rw [String.isEmpty_eq_false_iff]
    rintro rfl
    exact ht.1 rfl
  have hread : Format.document.optional Format.document.json ⟨.scalar 0 none .plain t, path, depth⟩
      = some <$> json ⟨.scalar 0 none .plain t, path, depth⟩ :=
    if_neg (by simp [hempty, Yaml.Meaning.isNullWord_of_isDotted ht])
  have hmeaning : scalarMeaning none .plain t = .ok (.ofPlain t) := rfl
  rw [lenientText, Format.lenientText, outcome_bind, hread, outcome_map, outcome_json_scalar,
    hmeaning]
  have hmeans := Yaml.means_ofPlain ht
  generalize Yaml.Meaning.ofPlain t = meaning at hmeans ⊢
  cases hmeans with
  | natural bound written => rfl
  | wide above bound written => rfl
  | float whole lead value => rfl
  | text h =>
      simp only [Yaml.Meaning.written?, String.ofList_toList, Option.map_some]
      rfl

end Cursor

/-! ## Documents

The size of a document bounds how often its aliases are followed.  The scalar with quotes and the
one without count as one node each, so the bound is the same. -/

lemma Yaml.Node.subnodesOfEntries_append (entries rest : List (Node × Node)) :
    subnodesOfEntries (entries ++ rest) = subnodesOfEntries entries ++ subnodesOfEntries rest := by
  induction entries with
  | nil => rfl
  | cons e entries ih => simp [subnodesOfEntries, ih]

/-- All scalars have the same size. -/
lemma VersionField.IsHole.weight_eq {field : VersionField} {hole : Node → Node}
    (h : field.IsHole hole) {style style' : Yaml.Style} {t : String} :
    (hole (.scalar 0 none style t)).weight = (hole (.scalar 0 none style' t)).weight := by
  cases h <;> simp [Slot.fill, Node.weight, Node.subnodes, Node.subnodesOfEntries_append,
    Node.subnodesOfEntries]

/-- The values of an outcome into which a version is put. -/
lemma exists_elim_eq_some_iff {put : String → Api → Api} {g : StateT ℕ Option Api}
    {version : Option String} {n : ℕ} {api : Api} :
    (∃ m, version.elim failure (fun s => put s <$> g) n = some (api, m)) ↔
      ∃ b ∈ (g n).map (·.1), ∃ s, version = some s ∧ api = put s b := by
  cases version with
  | none =>
      have hnone : ∀ m, (failure : StateT ℕ Option Api) n ≠ some (api, m) := fun m => by
        rw [show (failure : StateT ℕ Option Api) n = none from rfl]
        simp
      simp [hnone]
  | some s =>
      have hmap : (put s <$> g) n = (g n).map fun r => (put s r.1, r.2) := by
        have hbind : (put s <$> g) n = (g n).bind fun r => some (put s r.1, r.2) := rfl
        rw [hbind]
        cases g n <;> rfl
      rw [Option.elim_some, hmap]
      cases g n <;> simp [eq_comm]

namespace Api

/-- What two documents have in common that differ in the quotes of a version. -/
lemma exists_ofDocument_iff {field : VersionField} {version : String} {d quoted : Yaml.Document}
    (hversion : IsDotted version.toList) (h : field.Quotes version d quoted) :
    ∃ base : Option Api, ∀ api,
      (ofDocument quoted = .ok api ↔ ∃ b ∈ base, api = field.write version b) ∧
      (ofDocument d = .ok api ↔
        ∃ b ∈ base, ∃ s : String, ReadsAs version.toList s.toList ∧ api = field.write s b) := by
  obtain ⟨hole, anchored, hhole, hd, hquoted⟩ := h
  have hanchors : d.unplaced.anchors = quoted.unplaced.anchors := by
    rw [hd, hquoted, Yaml.Document.anchors, Yaml.Document.anchors, Yaml.Document.weight,
      Yaml.Document.weight, Option.map_some, Option.map_some, hhole.weight_eq]
  obtain ⟨g, hg⟩ := Cursor.puts_api (a := quoted.unplaced.anchors) hhole .root Cursor.depthLimit
  have hread : ∀ s : String, (Yaml.Meaning.ofPlain version).written?.map String.ofList = some s ↔
      ReadsAs version.toList s.toList := by
    intro s
    rw [readsAs_iff_of_means (Yaml.means_ofPlain hversion), Option.map_eq_some_iff]
    constructor
    · rintro ⟨written, hwritten, rfl⟩
      rw [hwritten, String.toList_ofList]
    · exact fun h => ⟨s.toList, h, String.ofList_toList⟩
  dsimp only at hg
  refine ⟨(g 0).map (·.1), fun api => ⟨?_, ?_⟩⟩
  · rw [← ofDocument_unplaced, ofDocument_eq_ok_iff (by rw [hquoted]),
      hg _ _ (Cursor.isVersion_quoted version), exists_elim_eq_some_iff]
    simp
  · rw [← ofDocument_unplaced, ofDocument_eq_ok_iff (by rw [hd]), hanchors,
      hg _ _ (Cursor.isVersion_plain hversion), exists_elim_eq_some_iff]
    simp only [hread]

/-- **A version with and without quotes.**  Where the document with quotes is a description, its
version is the text in the quotes, and the document without them is the same description but for the
version: that is what the text is read as without quotes.  So the two are one description exactly if
the text `IsKept`. -/
theorem parse_unquoted_iff {field : VersionField} {version text quotedText : String}
    {d quoted : Yaml.Document} (hversion : IsDotted version.toList) (htext : d.IsWritten text)
    (hquoted : quoted.IsWritten quotedText) (h : field.Quotes version d quoted) :
    (∀ api, parse quotedText = .ok api → field.of api = some version ∧
      (parse text = .ok api ↔ IsKept version.toList) ∧
      ∀ other, parse text = .ok other ↔
        ∃ s : String, ReadsAs version.toList s.toList ∧ other = field.write s api) ∧
    ∀ other, parse text = .ok other → parse quotedText = .ok (field.write version other) := by
  obtain ⟨base, hbase⟩ := exists_ofDocument_iff hversion h
  simp only [htext.parse_eq_ok_iff, hquoted.parse_eq_ok_iff, hbase, ← readsAs_self_iff]
  constructor
  · rintro api ⟨b, hb, rfl⟩
    obtain rfl : base = some b := hb
    refine ⟨by simp, ⟨?_, fun hkept => ⟨b, rfl, version, hkept, rfl⟩⟩, by simp⟩
    rintro ⟨other, -, s, hreads, hsame⟩
    obtain rfl : version = s := by simpa using congrArg field.of hsame
    exact hreads
  · rintro other ⟨b, hb, s, -, rfl⟩
    exact ⟨b, hb, by simp⟩

/-- A version that is a number. -/
def threeZero : String := "info:\n  version: 3.0\n"

/-- The same version within quotes. -/
def quotedThreeZero : String := "info:\n  version: \"3.0\"\n"

/-- What both texts are read as. -/
def threeZeroIn (style : Yaml.Style) : Yaml.Document := ⟨some (.mapping 0 none
  [(.scalar 0 none .plain "info",
    .mapping 8 none [(.scalar 8 none .plain "version", .scalar 17 none style "3.0")])]), []⟩

theorem parse_unquoted_iff_threeZero : ∃ api, parse quotedThreeZero = .ok api ∧
    parse threeZero = .ok api ∧ api.info.version = some "3.0" := by
  have htext : (threeZeroIn .plain).IsWritten threeZero := ⟨by decide +kernel, by cbv⟩
  have hquoted : (threeZeroIn .doubleQuoted).IsWritten quotedThreeZero :=
    ⟨by decide +kernel, by cbv⟩
  let top : Slot := ⟨none, [], none, .plain, "info", []⟩
  let within : Slot := ⟨none, [], none, .plain, "version", []⟩
  have hsame : VersionField.info.Quotes "3.0" (threeZeroIn .plain) (threeZeroIn .doubleQuoted) :=
    ⟨fun value => top.fill (within.fill value), [], .info rfl rfl, rfl, rfl⟩
  have hkept : IsKept "3.0".toList :=
    .inr (.inl ⟨⟨false, 4613937818241073152, by decide +kernel⟩, by decide +kernel⟩)
  obtain ⟨hread, -⟩ := parse_unquoted_iff (by decide +kernel) htext hquoted hsame
  have hapi : parse quotedThreeZero = .ok ⟨none, ⟨none, some "3.0", none⟩, .empty, default⟩ := by
    decide +kernel
  obtain ⟨hversion, hiff, -⟩ := hread _ hapi
  exact ⟨_, hapi, hiff.mpr hkept, hversion⟩

/-- A version that ends in a zero. -/
def oneTen : String := "info:\n  version: 1.10\n"

/-- The same version within quotes. -/
def quotedOneTen : String := "info:\n  version: \"1.10\"\n"

/-- The zero is lost without quotes. -/
theorem not_kept_oneTen : ∃ api other, parse quotedOneTen = .ok api ∧ parse oneTen = .ok other ∧
    api.info.version = some "1.10" ∧ other.info.version = some "1.1" := by
  refine ⟨⟨none, ⟨none, some "1.10", none⟩, .empty, default⟩,
    ⟨none, ⟨none, some "1.1", none⟩, .empty, default⟩, ?_, ?_, rfl, rfl⟩
  · decide +kernel
  · decide +kernel

end Api

end WorkerGen
