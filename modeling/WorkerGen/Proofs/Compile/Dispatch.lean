import Mathlib
import WorkerGen.Proofs.Compile.Table

/-!
# Which route answers a request

A request is answered by the first route of the table that has its method and accepts its path.
Routes with fewer parameters come first, and this is all that the order of the table looks at.  It
is enough: a more specific route stands before a less specific one, and every route answers some
request, unless an operation of the same method and shape stands earlier in the description
(`dispatches_table`).

A request that a route answers has the literals of the route and, for its parameters, a text that no
route of the table has as a literal.  What accepts it has parameters where the route has some, and
if it stands before the route it has no more of them, so that it has the same shape.

* `MoreSpecific.paramCount_lt` — a more specific route has fewer parameters, so that the order of
  the table puts it first.
* `sameShape_of_firstMatch?` — what answers the request made for a route has the shape of the route.
* `sublist_table_of_sublist` — routes with equally many parameters keep the order of their
  operations, which is why the earlier one of a shape answers and the later one never does.

The order of a list is spoken of by sublists of two elements: `[q, r] <+ l` says that `q` stands
before `r`, and no positions have to be compared.
-/

namespace WorkerGen

open List (Forall₂)
open scoped List

/-! ## Segments

Two segments have the same shape if no request can tell them apart.  Where one refines another it
accepts no more, and it has as many parameters as the other only if the two have the same shape;
counting parameters segment by segment carries that to routes. -/

namespace Segment

/-- Whether a segment accepts a segment of a request. -/
def Accepts : Segment → String → Prop
  | .literal text, part => text = part
  | .param _, _ => True

instance : DecidableRel Accepts
  | .literal text, part => inferInstanceAs (Decidable (text = part))
  | .param _, _ => .isTrue trivial

/-- Whether two segments are equal literals or both parameters. -/
def SameShape : Segment → Segment → Prop
  | .literal s, .literal t => s = t
  | .param _, .param _ => True
  | _, _ => False

/-- Whether a segment is the same literal as another, if that is a literal. -/
def Refines : Segment → Segment → Prop
  | .literal s, .literal t => s = t
  | .param _, .literal _ => False
  | _, .param _ => True

/-- What a request may have where a route has a segment, if the text `other` stands for anything. -/
def partFor (other : String) : Segment → String
  | .literal text => text
  | .param _ => other

variable {s t : Segment} {part other : String}

lemma Accepts.of_sameShape (h : s.SameShape t) (ht : t.Accepts part) : s.Accepts part := by
  cases s <;> cases t <;> simp_all [Accepts, SameShape]

lemma SameShape.symm (h : s.SameShape t) : t.SameShape s := by
  cases s <;> cases t <;> simp_all [SameShape]

lemma accepts_partFor : s.Accepts (partFor other s) := by
  cases s <;> simp [Accepts, partFor]

/-- What accepts such a part accepts whatever the segment does. -/
lemma refines_of_accepts (hother : s ≠ .literal other) (h : s.Accepts (partFor other t)) :
    t.Refines s := by
  cases s <;> cases t <;> simp_all [Accepts, partFor, Refines]

lemma ofPiece_cases (piece : List Char) :
    (∃ name, ofPiece piece = .param name) ∨ ofPiece piece = .literal (String.ofList piece) := by
  unfold ofPiece
  split
  · split
    · exact .inl ⟨_, rfl⟩
    · exact .inr rfl
  · exact .inr rfl

lemma countP_le_of_refines : ∀ {s t : List Segment}, Forall₂ Refines s t →
    s.countP isParam ≤ t.countP isParam
  | [], [], _ => le_rfl
  | a :: s, b :: t, h => by
      obtain ⟨hhead, htail⟩ := List.forall₂_cons.mp h
      have hle := countP_le_of_refines htail
      rw [List.countP_cons, List.countP_cons]
      cases a <;> cases b <;> simp_all [isParam, Refines]
      omega

/-- Segments that are as in others where those are literals, and have as many parameters, have their
shape. -/
lemma sameShape_of_refines : ∀ {s t : List Segment}, Forall₂ Refines s t →
    t.countP isParam ≤ s.countP isParam → Forall₂ SameShape s t
  | [], [], _, _ => .nil
  | a :: s, b :: t, h, hcount => by
      obtain ⟨hhead, htail⟩ := List.forall₂_cons.mp h
      have hle := countP_le_of_refines htail
      rw [List.countP_cons, List.countP_cons] at hcount
      cases a with
      | literal text =>
          cases b with
          | literal text' =>
              have hrest := sameShape_of_refines htail (by simpa [isParam] using hcount)
              exact .cons hhead hrest
          | param name =>
              simp only [isParam, if_true, Bool.false_eq_true, if_false] at hcount
              omega
      | param name =>
          cases b with
          | literal text => exact hhead.elim
          | param name' =>
              have hrest := sameShape_of_refines htail (by simpa [isParam] using hcount)
              exact .cons trivial hrest

lemma countP_of_sameShape : ∀ {s t : List Segment}, Forall₂ SameShape s t →
    s.countP isParam = t.countP isParam
  | [], [], _ => rfl
  | a :: s, b :: t, h => by
      obtain ⟨hhead, htail⟩ := List.forall₂_cons.mp h
      have hcount := countP_of_sameShape htail
      rw [List.countP_cons, List.countP_cons, hcount]
      cases a <;> cases b <;> simp_all [isParam, SameShape]

end Segment

/-! ## Routes and requests

A request for a route is made by putting in a text for its parameters.  There is always a text that
no route of a table has as a literal, since the table is finite (`exists_other`). -/

namespace Route

/-- Whether a route accepts the segments of a request. -/
def Accepts (r : Route) (parts : List String) : Prop := Forall₂ Segment.Accepts r.segments parts

instance (r : Route) (parts : List String) : Decidable (r.Accepts parts) :=
  inferInstanceAs (Decidable (Forall₂ _ _ _))

/-- Whether two routes have the same shape. -/
def SameShape (q r : Route) : Prop := Forall₂ Segment.SameShape q.segments r.segments

/-- Whether a route has the literals of another, and a literal where that one has a parameter. -/
structure MoreSpecific (q r : Route) : Prop where
  refines : Forall₂ Segment.Refines q.segments r.segments
  literal : ∃ (index : ℕ) (text name : String),
    q.segments[index]? = some (.literal text) ∧ r.segments[index]? = some (.param name)

/-- The route that answers a request. -/
def firstMatch? (table : List Route) (method : Method) (parts : List String) : Option Route :=
  table.find? fun r => r.method = method ∧ r.Accepts parts

variable {q r : Route} {parts : List String} {other : String}

lemma Accepts.of_sameShape (h : q.SameShape r) (hr : r.Accepts parts) : q.Accepts parts := by
  have hall : ∀ {s t : List Segment} {parts : List String}, Forall₂ Segment.SameShape s t →
      Forall₂ Segment.Accepts t parts → Forall₂ Segment.Accepts s parts := by
    intro s t parts hshape haccepts
    induction hshape generalizing parts with
    | nil => exact haccepts
    | cons hhead _ ih =>
        cases haccepts with
        | cons hpart hrest => exact .cons (hpart.of_sameShape hhead) (ih hrest)
  exact hall h hr

/-- A more specific route has fewer parameters. -/
lemma MoreSpecific.paramCount_lt (h : q.MoreSpecific r) : q.paramCount < r.paramCount := by
  refine lt_of_not_ge fun hle => ?_
  obtain ⟨index, text, name, hq, hr⟩ := h.literal
  have hshape := Segment.sameShape_of_refines h.refines hle
  obtain ⟨hiq, hq⟩ := List.getElem?_eq_some_iff.mp hq
  obtain ⟨hir, hr⟩ := List.getElem?_eq_some_iff.mp hr
  have hat := hshape.get hiq hir
  rw [List.get_eq_getElem, List.get_eq_getElem, hq, hr] at hat
  exact hat

/-- A request that a route accepts, with one text for all of its parameters. -/
def request (other : String) (r : Route) : List String := r.segments.map (Segment.partFor other)

lemma accepts_request (other : String) (r : Route) : r.Accepts (r.request other) := by
  rw [Accepts, request, List.forall₂_map_right_iff, List.forall₂_same]
  exact fun s _ => Segment.accepts_partFor

/-- What accepts such a request accepts whatever the route does, if the text is none of its
literals. -/
lemma refines_of_accepts_request (hother : ∀ s ∈ q.segments, s ≠ .literal other)
    (h : q.Accepts (r.request other)) : Forall₂ Segment.Refines r.segments q.segments := by
  rw [Accepts, request, List.forall₂_map_right_iff] at h
  refine List.Forall₂.flip (((List.forall₂_and_left _ _).mpr ⟨hother, h⟩).imp fun s t hs => ?_)
  exact Segment.refines_of_accepts hs.1 hs.2

/-- The segments of a path are not empty, so that requests have them. -/
lemma nonempty_of_mem_request {method : Method} {path : String} {handler : Option String}
    (hother : other ≠ "") {part : String}
    (h : part ∈ (Route.new method path handler).request other) : part ≠ "" := by
  obtain ⟨s, hs, rfl⟩ := List.mem_map.mp h
  obtain ⟨piece, hpiece, rfl⟩ := List.mem_map.mp hs
  have hne : piece ≠ [] := by simpa using (List.mem_filter.mp hpiece).2
  rcases Segment.ofPiece_cases piece with ⟨name, hparam⟩ | hliteral
  · rwa [hparam]
  · rw [hliteral]
    simpa [Segment.partFor] using hne

end Route

/-! ## The order of a list

Lists without repetition and the order of two of their elements, by sublists. -/

section
variable {α : Type} {a b : α}

/-- What stands first is found first. -/
lemma find?_ne_of_sublist {p : α → Bool} : ∀ {s : List α}, s.Nodup → [a, b] <+ s → p a = true →
    s.find? p ≠ some b
  | [], _, h, _ => absurd h.length_le (by simp)
  | c :: s, hnodup, h, ha => by
      obtain ⟨hnew, hrest⟩ := List.nodup_cons.mp hnodup
      intro hfind
      rw [List.find?_cons] at hfind
      cases h with
      | cons _ h =>
          cases hc : p c with
          | true =>
              rw [hc] at hfind
              obtain rfl : c = b := Option.some.inj hfind
              exact hnew (h.subset (by simp))
          | false =>
              rw [hc] at hfind
              exact find?_ne_of_sublist hrest h ha hfind
      | cons_cons _ h =>
          rw [ha] at hfind
          obtain rfl : a = b := Option.some.inj hfind
          exact hnew (h.subset (by simp))

/-- Of two elements one stands before the other. -/
lemma sublist_pair_or : ∀ {s : List α}, a ∈ s → b ∈ s → a ≠ b → [a, b] <+ s ∨ [b, a] <+ s
  | c :: s, ha, hb, hne => by
      rcases List.mem_cons.mp ha with rfl | ha'
      · have hb' := (List.mem_cons.mp hb).resolve_left hne.symm
        exact .inl ((List.singleton_sublist.mpr hb').cons_cons _)
      · rcases List.mem_cons.mp hb with rfl | hb'
        · exact .inr ((List.singleton_sublist.mpr ha').cons_cons _)
        · exact (sublist_pair_or ha' hb' hne).imp (.cons _) (.cons _)

/-- Without repetition two elements have one order only. -/
lemma not_sublist_swap {s : List α} (hnodup : s.Nodup) (h : [a, b] <+ s) : ¬ [b, a] <+ s := by
  classical
  intro hswap
  have hfirst := find?_ne_of_sublist (p := fun c => c = a ∨ c = b) hnodup h (by simp)
  have hsecond := find?_ne_of_sublist (p := fun c => c = a ∨ c = b) hnodup hswap (by simp)
  cases hfind : s.find? fun c => c = a ∨ c = b with
  | none => exact absurd (List.find?_eq_none.mp hfind a (h.subset (by simp))) (by simp)
  | some c =>
      have hc : c = a ∨ c = b := by simpa using List.find?_some hfind
      rcases hc with rfl | rfl
      · exact hsecond hfind
      · exact hfirst hfind

/-- What is found stands before everything else that might be. -/
lemma sublist_of_find? {p : α → Bool} {s : List α} (hfind : s.find? p = some a) (hb : b ∈ s)
    (hpb : p b = true) (hne : a ≠ b) : [a, b] <+ s := by
  obtain ⟨-, before, after, rfl, hbefore⟩ := List.find?_eq_some_iff_append.mp hfind
  rcases List.mem_append.mp hb with hb | hb
  · exact absurd (hbefore b hb) (by simp [hpb])
  · have hb' := (List.mem_cons.mp hb).resolve_left hne.symm
    exact ((List.singleton_sublist.mpr hb').cons_cons a).trans (List.sublist_append_right before _)

end

/-! ## The order of the table

The table is sorted by the number of parameters alone, and the sort is stable. -/

section
variable {api : Api} {q r : Route}

/-- The routes of a description, in the order of its operations. -/
def routesOf (api : Api) : List Route := api.operations.map (routeOf api.defaults)

lemma table_eq (api : Api) : Route.table api (Handler.ofApi api)
    = (routesOf api).mergeSort fun q r => q.paramCount ≤ r.paramCount := by
  rw [Route.table, routesOf]
  refine congrArg (List.mergeSort · _) (List.map_congr_left fun o hmem => ?_)
  exact congrArg (Route.new o.2.1 o.1) (handlerFor?_eq hmem)

/-- The order of the table is transitive. -/
lemma paramCount_trans (a b c : Route) (hab : decide (a.paramCount ≤ b.paramCount) = true)
    (hbc : decide (b.paramCount ≤ c.paramCount) = true) :
    decide (a.paramCount ≤ c.paramCount) = true := by
  simp only [decide_eq_true_eq] at hab hbc ⊢
  exact hab.trans hbc

/-- The order of the table is total. -/
lemma paramCount_total (a b : Route) :
    (decide (a.paramCount ≤ b.paramCount) || decide (b.paramCount ≤ a.paramCount)) = true := by
  simp only [Bool.or_eq_true, decide_eq_true_eq]
  exact Nat.le_total _ _

lemma nodup_table' (api : Api) : (Route.table api (Handler.ofApi api)).Nodup :=
  (nodup_table api).of_map

/-- No route has more parameters than one behind it. -/
lemma paramCount_le_of_sublist (h : [q, r] <+ Route.table api (Handler.ofApi api)) :
    q.paramCount ≤ r.paramCount := by
  have hsorted : (Route.table api (Handler.ofApi api)).Pairwise fun q r =>
      decide (q.paramCount ≤ r.paramCount) = true := by
    rw [table_eq]
    exact List.pairwise_mergeSort paramCount_trans paramCount_total _
  simpa using List.pairwise_iff_forall_sublist.mp hsorted h

/-- Routes with the same number of parameters keep their order. -/
lemma sublist_table_of_sublist (h : [q, r] <+ routesOf api) (hle : q.paramCount ≤ r.paramCount) :
    [q, r] <+ Route.table api (Handler.ofApi api) := by
  rw [table_eq]
  exact List.pair_sublist_mergeSort paramCount_trans paramCount_total (by simpa using hle) h

/-- Routes with the same number of parameters have the order of their operations. -/
lemma sublist_routes_of_sublist (h : [q, r] <+ Route.table api (Handler.ofApi api))
    (hge : r.paramCount ≤ q.paramCount) : [q, r] <+ routesOf api := by
  have hmem : ∀ {p}, p ∈ [q, r] → p ∈ routesOf api := fun hp =>
    (table_perm api).mem_iff.mp (h.subset hp)
  have hne : q ≠ r := by
    rintro rfl
    exact absurd ((nodup_table' api).sublist h) (by simp)
  rcases sublist_pair_or (hmem (by simp)) (hmem (by simp)) hne with hsub | hswap
  · exact hsub
  · exact absurd (sublist_table_of_sublist hswap hge) (not_sublist_swap (nodup_table' api) h)

end

/-! ## Which route answers

Both halves of the statement are about the first route of the table that accepts a request.  For a
route that is not shadowed it is the route itself, and for one that is shadowed it is never that. -/

/-- Whether an operation stands behind one of the same method and shape. -/
def IsShadowed (api : Api) (o : String × Method × Operation) : Prop :=
  ∃ earlier, [earlier, o] <+ api.operations ∧ earlier.2.1 = o.2.1 ∧
    (routeOf api.defaults earlier).SameShape (routeOf api.defaults o)

/-- What holds of the routing table of a description. -/
structure Dispatches (api : Api) (table : List Route) : Prop where
  /-- The table has one route for every operation. -/
  perm : table.Perm (api.operations.map (routeOf api.defaults))
  nodup : (table.map fun r => (r.path, r.method)).Nodup
  /-- The route of an operation with steps leads to the handler for its path and method, and that of
  another is passed through. -/
  handler : ∀ o ∈ api.operations, (o.2.2.steps = none → (routeOf api.defaults o).handler = none) ∧
    (o.2.2.steps ≠ none → ∃ h ∈ Handler.ofApi api,
      h.path = o.1 ∧ h.method = o.2.1 ∧ (routeOf api.defaults o).handler = some h.id)
  /-- More specific routes stand before less specific ones. -/
  specific : ∀ q ∈ table, ∀ r ∈ table, q.MoreSpecific r → [q, r] <+ table
  /-- Every route answers some request, unless it is shadowed. -/
  answers : ∀ o ∈ api.operations, ¬ IsShadowed api o → ∃ parts : List String,
    (∀ part ∈ parts, part ≠ "") ∧
      Route.firstMatch? table o.2.1 parts = some (routeOf api.defaults o)
  /-- A route that is shadowed answers no request. -/
  shadowed : ∀ o ∈ api.operations, IsShadowed api o → ∀ parts : List String,
    Route.firstMatch? table o.2.1 parts ≠ some (routeOf api.defaults o)

section
variable {api : Api} {q r : Route} {o : String × Method × Operation}

/-- The route of an operation is that of no other. -/
lemma routeOf_inj {o o' : String × Method × Operation} (ho : o ∈ api.operations)
    (ho' : o' ∈ api.operations) (h : routeOf api.defaults o = routeOf api.defaults o') : o = o' :=
  List.inj_on_of_nodup_map (nodup_operations api) ho ho'
    (Prod.ext (congrArg Route.path h) (congrArg Route.method h))

/-- A text that no route of a table has as a literal. -/
lemma exists_other (table : List Route) :
    ∃ other : String, other ≠ "" ∧ ∀ r ∈ table, ∀ s ∈ r.segments, s ≠ .literal other := by
  have htexts := Infinite.exists_notMem_finset
    ("" :: table.flatMap fun r => r.segments.map (Segment.partFor "")).toFinset
  obtain ⟨other, hother⟩ := htexts
  rw [List.mem_toFinset, List.mem_cons, not_or] at hother
  refine ⟨other, hother.1, fun r hr s hs heq => hother.2 ?_⟩
  exact List.mem_flatMap.mpr ⟨r, hr, List.mem_map.mpr ⟨s, hs, by rw [heq]; rfl⟩⟩

/-- What answers a request made for a route, with a text that is no literal, has the shape of the
route. -/
lemma sameShape_of_firstMatch? {other : String} {method : Method}
    (hother : ∀ r ∈ Route.table api (Handler.ofApi api), ∀ s ∈ r.segments, s ≠ .literal other)
    (hr : r ∈ Route.table api (Handler.ofApi api)) (hmethod : r.method = method)
    (hfind : Route.firstMatch? (Route.table api (Handler.ofApi api)) method (r.request other)
      = some q) (hne : q ≠ r) : q.SameShape r ∧ q.method = method ∧ [q, r] <+ routesOf api := by
  have hq : q.method = method ∧ q.Accepts (r.request other) := by
    simpa using List.find?_some hfind
  have hrefines := Route.refines_of_accepts_request
    (hother q (List.mem_of_find?_eq_some hfind)) hq.2
  have hbefore : [q, r] <+ Route.table api (Handler.ofApi api) :=
    sublist_of_find? hfind hr (by simpa using ⟨hmethod, Route.accepts_request other r⟩) hne
  have hshape := Segment.sameShape_of_refines hrefines (paramCount_le_of_sublist hbefore)
  refine ⟨hshape.flip.imp fun _ _ => Segment.SameShape.symm, hq.1, ?_⟩
  exact sublist_routes_of_sublist hbefore (Segment.countP_of_sameShape hshape).le

/-- A route that stands behind another in the description is that of an operation behind another. -/
lemma isShadowed_of_sublist (ho : o ∈ api.operations) (hmethod : q.method = o.2.1)
    (hshape : q.SameShape (routeOf api.defaults o))
    (h : [q, routeOf api.defaults o] <+ routesOf api) : IsShadowed api o := by
  obtain ⟨pair, hpair, heq⟩ := List.sublist_map_iff.mp h
  obtain ⟨earlier, rest, rfl, rfl, hrest⟩ := List.map_eq_cons_iff.mp heq.symm
  obtain ⟨later, rest, rfl, hlater, hnil⟩ := List.map_eq_cons_iff.mp hrest
  obtain rfl := List.map_eq_nil_iff.mp hnil
  obtain rfl := routeOf_inj (hpair.subset (by simp)) ho hlater
  exact ⟨earlier, hpair, hmethod, hshape⟩

end

/-- **Requests are answered by the most specific route**, and every route answers one unless an
operation of the same method and shape stands earlier. -/
theorem dispatches_table (api : Api) : Dispatches api (Route.table api (Handler.ofApi api)) where
  perm := table_perm api
  nodup := nodup_table api
  handler := by
    rintro ⟨path, method, operation⟩ ho
    refine ⟨fun hsteps => ?_, fun hsteps => ?_⟩
    · simpa [routeOf, Route.new, Handler.ofOperation?] using hsteps
    · cases hsome : Handler.ofOperation? api.defaults path method operation with
      | none => exact absurd (by simpa [Handler.ofOperation?] using hsome) hsteps
      | some h =>
          obtain ⟨hpath, hmethod, -, -⟩ := ofOperation?_eq_some hsome
          refine ⟨h, mem_ofApi.mpr ⟨path, method, operation, ho, hsome⟩, hpath, hmethod, ?_⟩
          simp [routeOf, Route.new, hsome]
  specific := by
    intro q hq r hr hspecific
    have hlt := hspecific.paramCount_lt
    have hne : q ≠ r := fun heq => absurd (heq ▸ hlt) (lt_irrefl _)
    refine (sublist_pair_or hq hr hne).resolve_right fun hswap => ?_
    exact absurd (paramCount_le_of_sublist hswap) (not_le_of_gt hlt)
  answers := by
    intro o ho hshadowed
    have hr := mem_table.mpr ⟨o, ho, rfl⟩
    obtain ⟨other, hempty, hother⟩ := exists_other (Route.table api (Handler.ofApi api))
    refine ⟨(routeOf api.defaults o).request other,
      fun part hpart => Route.nonempty_of_mem_request hempty hpart, ?_⟩
    cases hfind : Route.firstMatch? (Route.table api (Handler.ofApi api)) o.2.1
        ((routeOf api.defaults o).request other) with
    | none =>
        have hnot := List.find?_eq_none.mp hfind _ hr
        exact absurd (by simpa using ⟨rfl, Route.accepts_request other _⟩) hnot
    | some q =>
        by_contra hne
        have hne' : q ≠ routeOf api.defaults o := fun heq => hne (congrArg some heq)
        obtain ⟨hshape, hmethod, hsub⟩ := sameShape_of_firstMatch? hother hr rfl hfind hne'
        exact hshadowed (isShadowed_of_sublist ho hmethod hshape hsub)
  shadowed := by
    rintro o ho ⟨earlier, hsub, hmethod, hshape⟩ parts hfind
    have hroutes := hsub.map (routeOf api.defaults)
    have hbefore := sublist_table_of_sublist hroutes (Segment.countP_of_sameShape hshape).le
    have hr : (routeOf api.defaults o).Accepts parts := by
      have hfound := List.find?_some hfind
      simp only [decide_eq_true_eq] at hfound
      exact hfound.2
    refine find?_ne_of_sublist (nodup_table' api) hbefore ?_ hfind
    exact decide_eq_true ⟨hmethod, hr.of_sameShape hshape⟩

end WorkerGen
