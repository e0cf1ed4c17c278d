import Mathlib
import WorkerGen.Files.Lookup

/-!
# The names of paths

A path is a text, but it is followed name by name.  Everything that the development has to know
about the texts of paths is proved here, and from here on texts play no part: other modules speak of
`Path.way`, of whether a path is absolute, and of whether it ends with a slash.

* `Path.way` — the names that matter, those apart from `.`.
* `names_join` — the names of a joined path are those of its parts, unless the second is absolute;
  `way_join`, `isAbsolute_join` and `endsWithSlash_join` say the same of what is derived from them.
* `way_location` — the path that is made for a location leads through its names.
* `way_parent?` — the parent of a path has its names up to the last, although the parent is cut out
  of the text and may end in slashes and dots of its own.
* `of_mem_ancestors` — all that a path is in has some of its names, from the first on.
* `Path.steps` — all steps of a path, `..` and the root included, by which paths are compared
  whatever slashes they are written with; `steps_join` gives those of a joined path.

A path is looked for only if its text is not too long and holds no character that ends a text for
the system.  `check_of_join` and `check_join_of_le` carry that from a path to the shorter ones that
are made beside it, so that a program which has opened one file can open the next.
-/

namespace WorkerGen

/-! ## Pieces

The pieces of a text are what stands between its slashes, empty ones included.  The names of a path
are its pieces without the empty ones. -/

namespace Text

variable {sep : Char}

lemma pieces_ne_nil (sep : Char) : ∀ s : List Char, pieces sep s ≠ []
  | [] => by simp [pieces]
  | c :: s => by
      rw [pieces]
      split_ifs
      · simp
      · cases h : pieces sep s <;> simp

lemma pieces_append_sep (sep : Char) (t : List Char) : ∀ s : List Char,
    pieces sep (s ++ sep :: t) = pieces sep s ++ pieces sep t
  | [] => by simp [pieces]
  | c :: s => by
      rw [List.cons_append, pieces, pieces, pieces_append_sep sep t s]
      split_ifs
      · rfl
      · cases h : pieces sep s with
        | nil => exact absurd h (pieces_ne_nil sep s)
        | cons piece more => rfl

lemma pieces_of_not_mem : ∀ {s : List Char}, sep ∉ s → pieces sep s = [s]
  | [], _ => rfl
  | c :: s, h => by
      rw [List.mem_cons, not_or] at h
      rw [pieces, if_neg fun hc => h.1 hc.symm, pieces_of_not_mem h.2]

lemma not_mem_of_mem_pieces : ∀ {s piece : List Char}, piece ∈ pieces sep s → sep ∉ piece
  | [], piece, h => by
      rw [pieces, List.mem_singleton] at h
      subst h
      exact List.not_mem_nil
  | c :: s, piece, h => by
      rw [pieces] at h
      split_ifs at h with hc
      · rcases List.mem_cons.mp h with rfl | h
        · exact List.not_mem_nil
        · exact not_mem_of_mem_pieces h
      · cases hs : pieces sep s with
        | nil => exact absurd hs (pieces_ne_nil sep s)
        | cons first more =>
            rw [hs] at h
            have hrest : ∀ q ∈ first :: more, sep ∉ q := by
              intro q hq
              rw [← hs] at hq
              exact not_mem_of_mem_pieces hq
            rcases List.mem_cons.mp h with rfl | h
            · rw [List.mem_cons, not_or]
              exact ⟨fun heq => hc heq.symm, hrest first List.mem_cons_self⟩
            · exact hrest piece (List.mem_cons_of_mem first h)

/-- The first piece starts as the text does, unless that starts with a separator. -/
lemma exists_pieces_eq {c : Char} (s : List Char) (h : c ≠ sep) :
    ∃ piece more, pieces sep (c :: s) = (c :: piece) :: more := by
  rw [pieces, if_neg h]
  cases hs : pieces sep s with
  | nil => exact ⟨[], [], rfl⟩
  | cons piece more => exact ⟨piece, more, rfl⟩

end Text

namespace Path

open Text

/-- The names that are followed along a path. -/
def way (p : Path) : List String := p.names.filter (· != ".")

variable {p q : Path}

lemma mem_names {name : String} (h : name ∈ p.names) : name ≠ "" ∧ '/' ∉ name.toList := by
  obtain ⟨piece, hpiece, rfl⟩ := List.mem_map.mp h
  obtain ⟨hmem, hempty⟩ := List.mem_filter.mp hpiece
  constructor
  · intro h
    have : piece = [] := by simpa using congrArg String.toList h
    simp [this] at hempty
  · rw [String.toList_ofList]
    exact not_mem_of_mem_pieces hmem

lemma mem_way {name : String} (h : name ∈ p.way) :
    name ≠ "" ∧ name ≠ "." ∧ '/' ∉ name.toList := by
  obtain ⟨hmem, hdot⟩ := List.mem_filter.mp h
  exact ⟨(mem_names hmem).1, by simpa using hdot, (mem_names hmem).2⟩

lemma names_append_slash (s t : String) :
    (Path.mk (s ++ "/" ++ t)).names = (Path.mk s).names ++ (Path.mk t).names := by
  have htext : (s ++ "/" ++ t).toList = s.toList ++ '/' :: t.toList := by
    simp [String.toList_append]
  rw [names, names, names, htext, pieces_append_sep, List.filter_append, List.map_append]

lemma names_of_not_mem {s : String} (h : '/' ∉ s.toList) :
    (Path.mk s).names = if s = "" then [] else [s] := by
  rw [names, pieces_of_not_mem h]
  split_ifs with hs
  · simp [hs]
  · have : s.toList ≠ [] := by simpa using hs
    simp [this]

lemma names_of_isEmpty (h : p.text.isEmpty = true) : p.names = [] := by
  obtain ⟨text⟩ := p
  have : text = "" := by simpa using h
  subst this
  rfl

/-! ## Joined paths

A path is joined to another behind a slash, which is left out where the first ends with one.  Either
way the pieces of the whole are those of the parts, up to empty ones. -/

lemma join_eq (hq : q.isAbsolute = false) :
    p.join q = q ∧ p.text = "" ∨
      (∃ s, p.text = s ++ "/" ∧ p.join q = ⟨s ++ "/" ++ q.text⟩) ∨
      p.join q = ⟨p.text ++ "/" ++ q.text⟩ ∧ p.text ≠ "" := by
  rw [join, hq, Bool.false_or]
  split_ifs with hempty hslash
  · exact .inl ⟨rfl, by simpa using hempty⟩
  · refine .inr (.inl ⟨String.ofList p.text.toList.dropLast, ?_, ?_⟩)
    all_goals
      have hlast := List.dropLast_append_getLast? '/' hslash
      have htext : String.ofList p.text.toList.dropLast ++ "/" = p.text := by
        apply String.toList_injective
        simpa [String.toList_append] using hlast
      rw [htext]
  · exact .inr (.inr ⟨rfl, by simpa using hempty⟩)

/-- **The names of a joined path are those of its parts.** -/
theorem names_join (hq : q.isAbsolute = false) : (p.join q).names = p.names ++ q.names := by
  rcases join_eq (p := p) hq with ⟨hjoin, htext⟩ | ⟨s, htext, hjoin⟩ | ⟨hjoin, -⟩
  · rw [hjoin, names_of_isEmpty (p := p) (by simp [htext]), List.nil_append]
  · obtain ⟨text⟩ := p
    obtain rfl : text = s ++ "/" := htext
    have hempty := names_append_slash s ""
    rw [String.append_empty] at hempty
    rw [hjoin, names_append_slash, hempty, names_of_isEmpty (p := ⟨""⟩) (by simp), List.append_nil]
  · rw [hjoin, names_append_slash]

lemma way_join (hq : q.isAbsolute = false) : (p.join q).way = p.way ++ q.way := by
  rw [way, names_join hq, List.filter_append, way, way]

lemma isAbsolute_mk_append {s t : String} (h : s ≠ "") :
    (Path.mk (s ++ t)).isAbsolute = (Path.mk s).isAbsolute := by
  have hs : s.toList ≠ [] := by simpa using h
  rw [isAbsolute, isAbsolute, String.toList_append, List.head?_append_of_ne_nil _ hs]

/-- A joined path starts where its first part does. -/
lemma isAbsolute_join (hq : q.isAbsolute = false) : (p.join q).isAbsolute = p.isAbsolute := by
  rcases join_eq (p := p) hq with ⟨hjoin, htext⟩ | ⟨s, htext, hjoin⟩ | ⟨hjoin, htext⟩
  · rw [hjoin, hq, isAbsolute, htext]
    rfl
  · obtain ⟨text⟩ := p
    obtain rfl : text = s ++ "/" := htext
    rw [hjoin, isAbsolute_mk_append (by simp)]
  · rw [hjoin, String.append_assoc, isAbsolute_mk_append htext]

/-- A joined path ends as its last part does. -/
lemma endsWithSlash_join (hq : q.isAbsolute = false) (htext : q.text ≠ "") :
    (p.join q).endsWithSlash = q.endsWithSlash := by
  have hq' : q.text.toList ≠ [] := by simpa using htext
  have happend : ∀ s : String, (Path.mk (s ++ q.text)).endsWithSlash = q.endsWithSlash := by
    intro s
    rw [endsWithSlash, endsWithSlash, String.toList_append, List.getLast?_append_of_ne_nil _ hq']
  rcases join_eq (p := p) hq with ⟨hjoin, -⟩ | ⟨s, -, hjoin⟩ | ⟨hjoin, -⟩
  · rw [hjoin]
  · rw [hjoin, happend]
  · rw [hjoin, happend]

/-- A path is looked for if it is shorter than one that is. -/
lemma check_of_check (h : q.check = .ok ()) (hempty : p.text ≠ "")
    (hnul : '\x00' ∈ p.text.toList → '\x00' ∈ q.text.toList)
    (hsize : p.text.utf8ByteSize ≤ q.text.utf8ByteSize) : p.check = .ok () := by
  rw [check] at h ⊢
  split_ifs at h with hnul' hempty' hlong
  rw [List.contains_iff_mem] at hnul'
  rw [if_neg (by rw [List.contains_iff_mem]; exact fun hp => hnul' (hnul hp)),
    if_neg (by simpa using hempty), if_neg (by omega)]

/-- The first part of a path that is looked for is looked for. -/
lemma check_of_join (hq : q.isAbsolute = false) (hempty : p.text ≠ "")
    (h : (p.join q).check = .ok ()) : p.check = .ok () := by
  rcases join_eq (p := p) hq with ⟨-, htext⟩ | ⟨s, htext, hjoin⟩ | ⟨hjoin, -⟩
  · exact absurd htext hempty
  · rw [hjoin] at h
    refine check_of_check h hempty ?_ ?_
    · rw [htext]
      dsimp only
      rw [String.toList_append (s := s ++ "/"), List.mem_append]
      exact .inl
    · rw [htext]
      dsimp only
      rw [String.utf8ByteSize_append (s := s ++ "/")]
      omega
  · rw [hjoin] at h
    refine check_of_check h hempty ?_ ?_
    · dsimp only
      rw [String.append_assoc, String.toList_append, List.mem_append]
      exact .inl
    · dsimp only
      rw [String.append_assoc, String.utf8ByteSize_append]
      omega

/-- A path may end in a shorter name. -/
lemma check_join_of_le {a b : String} (ha : (Path.mk a).isAbsolute = false)
    (hb : (Path.mk b).isAbsolute = false) (hempty : p.text ≠ "") (hnul : '\x00' ∉ b.toList)
    (hsize : b.utf8ByteSize ≤ a.utf8ByteSize) (h : (p.join ⟨a⟩).check = .ok ()) :
    (p.join ⟨b⟩).check = .ok () := by
  have hall : ∃ s, s ≠ "" ∧ p.join ⟨a⟩ = ⟨s ++ a⟩ ∧ p.join ⟨b⟩ = ⟨s ++ b⟩ := by
    have hempty' : p.text.isEmpty = false := by simpa using hempty
    rw [join, join, ha, hb, hempty', Bool.or_false, if_neg Bool.false_ne_true,
      if_neg Bool.false_ne_true]
    split_ifs
    · exact ⟨p.text, hempty, rfl, rfl⟩
    · exact ⟨p.text ++ "/", by simp, rfl, rfl⟩
  obtain ⟨s, hs, hja, hjb⟩ := hall
  rw [hja] at h
  rw [hjb]
  refine check_of_check h (by simp [hs]) ?_ ?_
  · simp only [String.toList_append, List.mem_append]
    exact fun hmem => .inl (hmem.resolve_right hnul)
  · rw [String.utf8ByteSize_append, String.utf8ByteSize_append]
    omega

/-! ## A single name

What a program puts into a directory goes by a name of one piece (`IsName`), or by a few such names
that lead down (`IsInside`).  Neither can leave the directory that it is joined to. -/

/-- Whether a text is the name of an entry of a directory. -/
structure IsName (name : String) : Prop where
  nonempty : name ≠ ""
  current : name ≠ "."
  parent : name ≠ ".."
  slash : '/' ∉ name.toList

lemma IsName.isAbsolute {name : String} (h : IsName name) : (Path.mk name).isAbsolute = false := by
  rw [Path.isAbsolute]
  cases hl : name.toList with
  | nil => rfl
  | cons c s =>
      have hc : c ≠ '/' := fun hc => h.slash (by simp [hl, hc])
      simpa using hc

lemma IsName.names {name : String} (h : IsName name) : (Path.mk name).names = [name] := by
  rw [names_of_not_mem h.slash, if_neg h.nonempty]

lemma IsName.way {name : String} (h : IsName name) : (Path.mk name).way = [name] := by
  rw [Path.way, h.names, List.filter_cons_of_pos (by simpa using h.current), List.filter_nil]

lemma IsName.endsWithSlash {name : String} (h : IsName name) :
    (Path.mk name).endsWithSlash = false := by
  rw [Path.endsWithSlash, beq_eq_false_iff_ne]
  exact fun hlast => h.slash (List.mem_of_getLast? hlast)

/-- Whether a path leads down from wherever it is seen, to something that it names. -/
structure IsInside (p : Path) : Prop where
  relative : p.isAbsolute = false
  noParent : ".." ∉ p.names
  named : p.way ≠ []

lemma IsInside.isStep (h : p.IsInside) {name : String} (hname : name ∈ p.way) :
    name ≠ "." ∧ name ≠ ".." :=
  ⟨(mem_way hname).2.1, fun hdots => h.noParent (hdots ▸ (List.mem_filter.mp hname).1)⟩

/-! ## The path of a location

A location is a list of names.  Written as a path it is absolute, and its names are those of the
location, if none of them holds a slash. -/

lemma names_intercalate : ∀ {s : List String}, (∀ t ∈ s, '/' ∉ t.toList) →
    (Path.mk ("/".intercalate s)).names = s.filter (· != "")
  | [], _ => names_of_isEmpty rfl
  | [t], h => by
      rw [String.intercalate_singleton, names_of_not_mem (h t List.mem_cons_self)]
      split_ifs with ht <;> simp [ht]
  | t :: u :: s, h => by
      rw [List.forall_mem_cons] at h
      rw [String.intercalate_cons_cons, names_append_slash, names_intercalate h.2,
        names_of_not_mem h.1]
      split_ifs with ht <;> simp [ht]

lemma names_slash_append (s : String) : (Path.mk ("/" ++ s)).names = (Path.mk s).names := by
  have h := names_append_slash "" s
  rwa [String.empty_append, names_of_isEmpty (p := ⟨""⟩) (by simp), List.nil_append] at h

lemma isAbsolute_slash_append (s : String) : (Path.mk ("/" ++ s)).isAbsolute = true := by
  simp [isAbsolute, String.toList_append]

lemma isAbsolute_location (l : Location) : l.path.isAbsolute = true :=
  isAbsolute_slash_append _

/-- The path of a location leads through its names. -/
lemma way_location {l : Location} (h : ∀ name ∈ l, IsName name) : l.path.way = l := by
  rw [way, Location.path, names_slash_append, names_intercalate fun t ht => (h t ht).slash,
    List.filter_filter, List.filter_eq_self]
  intro name hname
  simp [(h name hname).nonempty, (h name hname).current]

/-! ## Parents

The parent of a path is cut out of its pieces: the last piece that means anything is dropped with
all behind it, and so are the pieces without a meaning before it.  `wayOf` reads the names that are
followed off a list of pieces, so that both sides of `way_parent?` are compared piece by piece. -/

/-- The pieces of a path that are names to follow. -/
def wayOf (pieces : List (List Char)) : List String :=
  (pieces.filter fun s => s != [] && s != ['.']).map String.ofList

lemma wayOf_append (s t : List (List Char)) : wayOf (s ++ t) = wayOf s ++ wayOf t := by
  rw [wayOf, List.filter_append, List.map_append, wayOf, wayOf]

lemma way_eq_wayOf (p : Path) : p.way = wayOf p.pieces := by
  have hall : p.way = wayOf (Text.pieces '/' p.text.toList) := by
    have hdot : ∀ s : List Char, (String.ofList s != ".") = (s != ['.']) := by
      intro s
      rw [Bool.eq_iff_iff, bne_iff_ne, bne_iff_ne, ne_eq, ne_eq, not_iff_not]
      exact ⟨fun h => by simpa using congrArg String.toList h, fun h => by rw [h]⟩
    rw [way, names, wayOf, List.filter_map, List.filter_filter]
    congr 2
    funext s
    rw [Function.comp_apply, hdot, Bool.and_comm]
    cases s <;> rfl
  rw [hall, Path.pieces]
  split_ifs with habs
  · -- an absolute path has an empty piece before its root
    cases htext : p.text.toList with
    | nil => simp [isAbsolute, htext] at habs
    | cons c s =>
        obtain rfl : c = '/' := by simpa [isAbsolute, htext] using habs
        simp [Text.pieces, wayOf]
  · rfl

lemma map_fst_marked (p : Path) : p.marked.map (·.1) = p.pieces := by
  refine List.ext_getElem? fun index => ?_
  rw [marked, List.getElem?_map, List.getElem?_mapIdx, Option.map_map]
  exact Option.map_id'

/-- A piece without a meaning is no name to follow. -/
lemma wayOf_eq_nil {pieces : List (List Char × Option PathStep)}
    (h : ∀ piece ∈ pieces, piece ∈ p.marked ∧ piece.2.isNone = true) :
    wayOf (pieces.map (·.1)) = [] := by
  rw [wayOf, List.map_eq_nil_iff, List.filter_eq_nil_iff]
  intro s hs
  obtain ⟨piece, hpiece, rfl⟩ := List.mem_map.mp hs
  obtain ⟨hmem, hnone⟩ := h piece hpiece
  obtain ⟨index, hindex, rfl⟩ := List.mem_mapIdx.mp hmem
  dsimp only at hnone ⊢
  split_ifs at hnone with hempty hdot hfirst hparent
  · simp [List.isEmpty_iff.mp hempty]
  · simp at hnone
  · simp [hdot]
  · simp at hnone
  · simp at hnone

/-- A piece with a meaning is a name to follow, unless it is the `.` that a path begins with. -/
lemma wayOf_of_isSome {before after : List (List Char × Option PathStep)}
    {piece : List Char × Option PathStep} (h : p.marked = before ++ piece :: after)
    (hsome : piece.2.isNone = false) : wayOf [piece.1] = [String.ofList piece.1] ∨ before = [] := by
  have hget : p.marked[before.length]? = some piece := by
    rw [h, List.getElem?_append_right (Nat.le_refl _), Nat.sub_self, List.getElem?_cons_zero]
  rw [marked, List.getElem?_mapIdx] at hget
  obtain ⟨s, -, rfl⟩ := Option.map_eq_some_iff.mp hget
  dsimp only at hsome ⊢
  split_ifs at hsome with hempty hdot hfirst hparent
  · simp at hsome
  · refine .inr (List.length_eq_zero_iff.mp ?_)
    simp only [Bool.and_eq_true, decide_eq_true_eq] at hfirst
    exact hfirst.1
  · simp at hsome
  all_goals
    have hne : s ≠ [] := by simpa [List.isEmpty_iff] using hempty
    exact .inl (by simp [wayOf, hne, hdot])

/-! ### The pieces of a parent

The text of a parent is put together from some of the pieces, so its names are known once it is
known which. -/

/-- A parent is made of the pieces before the last one with a meaning. -/
lemma exists_marked_of_parent? (h : p.parent? = some q) :
    ∃ (kept front after : List (List Char × Option PathStep))
      (last : List Char × Option PathStep),
      p.marked = (kept ++ front) ++ last :: after ∧ last.2.isNone = false ∧
        (∀ piece ∈ front ++ after, piece.2.isNone = true) ∧
        q = ⟨(if p.isAbsolute then "/" else "") ++
          "/".intercalate (kept.map fun piece => String.ofList piece.1)⟩ := by
  rw [parent?] at h
  dsimp only at h
  set meaningless : List Char × Option PathStep → Bool := fun piece => piece.2.isNone
  have hafter := List.takeWhile_append_dropWhile (p := meaningless) (l := p.marked.reverse)
  cases hdrop : p.marked.reverse.dropWhile meaningless with
  | nil => rw [hdrop] at h; exact absurd h (by simp)
  | cons last rest =>
      rw [hdrop] at h hafter
      have hlast : meaningless last = false := by
        have hhead := List.head?_dropWhile_not meaningless p.marked.reverse
        rw [hdrop] at hhead
        exact hhead
      have hrest := List.takeWhile_append_dropWhile (p := meaningless) (l := rest)
      refine ⟨(rest.dropWhile meaningless).reverse, (rest.takeWhile meaningless).reverse,
        (p.marked.reverse.takeWhile meaningless).reverse, last, ?_, hlast, ?_, ?_⟩
      · rw [← List.reverse_append, hrest]
        simpa using (congrArg List.reverse hafter).symm
      · intro piece hpiece
        rcases List.mem_append.mp hpiece with hpiece | hpiece
        · exact List.mem_takeWhile_imp (p := meaningless) (List.mem_reverse.mp hpiece)
        · exact List.mem_takeWhile_imp (p := meaningless) (List.mem_reverse.mp hpiece)
      · simpa using h.symm

lemma not_mem_of_mem_pieces {s : List Char} (h : s ∈ p.pieces) : '/' ∉ s := by
  rw [Path.pieces] at h
  split_ifs at h
  · exact Text.not_mem_of_mem_pieces (List.mem_of_mem_tail h)
  · exact Text.not_mem_of_mem_pieces h

/-- A path that is put together from pieces, behind a slash or not, is followed along them. -/
lemma way_intercalate {pieces : List (List Char)} (hslash : ∀ s ∈ pieces, '/' ∉ s)
    (absolute : Bool) :
    (Path.mk ((if absolute then "/" else "") ++ "/".intercalate (pieces.map String.ofList))).way
      = wayOf pieces := by
  have hrelative : (Path.mk ("/".intercalate (pieces.map String.ofList))).way = wayOf pieces := by
    have hslash' : ∀ t ∈ pieces.map String.ofList, '/' ∉ t.toList := by
      intro t ht
      obtain ⟨piece, hpiece, rfl⟩ := List.mem_map.mp ht
      rw [String.toList_ofList]
      exact hslash piece hpiece
    rw [way, names_intercalate hslash', List.filter_filter, wayOf, List.filter_map]
    congr 2
    funext piece
    rw [Function.comp_apply, Bool.eq_iff_iff]
    have hdot : String.ofList piece = "." ↔ piece = ['.'] :=
      ⟨fun h => by simpa using congrArg String.toList h, fun h => by rw [h]⟩
    have hempty : String.ofList piece = "" ↔ piece = [] :=
      ⟨fun h => by simpa using congrArg String.toList h, fun h => by rw [h]⟩
    simp [hdot, hempty, and_comm]
  split_ifs
  · rw [way, names_slash_append, ← way, hrelative]
  · rw [String.empty_append, hrelative]

/-- **The parent of a path has its names up to the last.** -/
theorem way_parent? (h : p.parent? = some q) : q.way = p.way.dropLast := by
  obtain ⟨kept, front, after, last, hmarked, hlast, hnone, rfl⟩ := exists_marked_of_parent? h
  have hpieces := map_fst_marked p
  rw [hmarked, List.map_append, List.map_append, List.map_cons] at hpieces
  have hmeaningless : ∀ piece ∈ front ++ after, piece ∈ p.marked ∧ piece.2.isNone = true := by
    intro piece hpiece
    refine ⟨?_, hnone piece hpiece⟩
    rw [hmarked]
    rcases List.mem_append.mp hpiece with hpiece | hpiece <;> simp [hpiece]
  have hfront : wayOf (front.map (·.1)) = [] :=
    wayOf_eq_nil (p := p) fun piece hpiece =>
      hmeaningless piece (List.mem_append_left _ hpiece)
  have hafter : wayOf (after.map (·.1)) = [] :=
    wayOf_eq_nil (p := p) fun piece hpiece =>
      hmeaningless piece (List.mem_append_right _ hpiece)
  have hway : p.way = wayOf (kept.map (·.1)) ++ wayOf [last.1] := by
    rw [way_eq_wayOf, ← hpieces, ← List.singleton_append, wayOf_append, wayOf_append, wayOf_append,
      hfront, hafter, List.append_nil, List.append_nil]
  have hslash : ∀ s ∈ kept.map (·.1), '/' ∉ s := fun s hs =>
    not_mem_of_mem_pieces (p := p) (hpieces ▸ by simp [hs])
  have hparent := way_intercalate hslash p.isAbsolute
  rw [List.map_map] at hparent
  rw [hway]
  refine hparent.trans ?_
  rcases wayOf_of_isSome hmarked hlast with hlast | hbefore
  · rw [hlast, List.dropLast_concat]
  · -- only the `.` that a path begins with may be no name
    obtain ⟨rfl, -⟩ := List.append_eq_nil_iff.mp hbefore
    have hlength : (wayOf [last.1]).length ≤ 1 := by
      rw [wayOf, List.length_map]
      exact List.length_filter_le _ _
    have hnil : (wayOf [last.1]).dropLast = [] := by
      rw [← List.length_eq_zero_iff, List.length_dropLast]
      omega
    exact hnil.symm

/-- A path with names is in something. -/
lemma exists_parent? (h : p.way ≠ []) : ∃ q, p.parent? = some q := by
  rw [parent?]
  dsimp only
  set meaningless : List Char × Option PathStep → Bool := fun piece => piece.2.isNone
  cases hdrop : p.marked.reverse.dropWhile meaningless with
  | cons last rest => exact ⟨_, rfl⟩
  | nil =>
      refine absurd ?_ h
      rw [way_eq_wayOf, ← map_fst_marked]
      refine wayOf_eq_nil (p := p) fun piece hpiece => ⟨hpiece, ?_⟩
      exact List.dropWhile_eq_nil_iff.mp hdrop piece (List.mem_reverse.mpr hpiece)

/-- The parent of a path starts where the path does. -/
theorem isAbsolute_parent? (h : p.parent? = some q) : q.isAbsolute = p.isAbsolute := by
  obtain ⟨kept, front, after, last, hmarked, -, -, rfl⟩ := exists_marked_of_parent? h
  split_ifs with habs
  · rw [isAbsolute_slash_append, habs]
  · rw [Bool.not_eq_true] at habs
    rw [String.empty_append, habs]
    cases kept with
    | nil => rfl
    | cons first kept =>
        -- the first piece of a relative path is not empty, unless the path is
        have hpieces := map_fst_marked p
        rw [hmarked] at hpieces
        have hfirst : p.pieces = first.1 :: (kept ++ front ++ last :: after).map (·.1) := by
          rw [← hpieces]
          simp
        rw [Path.pieces, habs, if_neg Bool.false_ne_true] at hfirst
        cases htext : p.text.toList with
        | nil =>
            rw [htext, Text.pieces] at hfirst
            simp at hfirst
        | cons c s =>
            have hc : c ≠ '/' := by
              rw [isAbsolute, htext, List.head?_cons] at habs
              simpa using habs
            obtain ⟨piece, more, hp⟩ := Text.exists_pieces_eq s hc
            rw [htext, hp, List.cons.injEq] at hfirst
            have hhead : ∃ t, (("/".intercalate
                ((first :: kept).map fun piece => String.ofList piece.1))).toList = c :: t := by
              cases kept with
              | nil => exact ⟨piece, by simp [String.intercalate_singleton, ← hfirst.1]⟩
              | cons second kept =>
                  refine ⟨piece ++ '/' :: ("/".intercalate
                    ((second :: kept).map fun piece => String.ofList piece.1)).toList, ?_⟩
                  rw [List.map_cons, List.map_cons, String.intercalate_cons_cons,
                    String.toList_append, String.toList_append, String.toList_ofList, ← hfirst.1]
                  simp
            obtain ⟨t, ht⟩ := hhead
            rw [isAbsolute, ht, List.head?_cons]
            simpa using hc

/-- What a path is in has some of its names, and starts where it does. -/
theorem of_mem_ancestors {a : Path} (h : a ∈ p.ancestors) :
    a.way <+: p.way ∧ a.isAbsolute = p.isAbsolute := by
  have hfuel : ∀ (fuel : ℕ) (p : Path), a ∈ ancestorsUpTo fuel p →
      a.way <+: p.way ∧ a.isAbsolute = p.isAbsolute := by
    intro fuel
    induction fuel with
    | zero => intro p h; exact absurd h List.not_mem_nil
    | succ fuel ih =>
        intro p h
        rw [ancestorsUpTo] at h
        rcases List.mem_cons.mp h with rfl | h
        · exact ⟨List.prefix_refl _, rfl⟩
        · cases hparent : p.parent? with
          | none => rw [hparent] at h; exact absurd h List.not_mem_nil
          | some q =>
              rw [hparent] at h
              obtain ⟨hway, habs⟩ := ih q h
              rw [way_parent? hparent] at hway
              exact ⟨hway.trans (List.dropLast_prefix _), habs.trans (isAbsolute_parent? hparent)⟩
  exact hfuel _ p h

/-! ## Steps

The steps of a path know where it starts.  An inner `.` and an empty piece are none, while a `.` at
the very beginning is one, which is why `steps_join` asks for a second part that begins
otherwise. -/

/-- The step that a piece stands for inside of a path. -/
def stepOf? (piece : List Char) : Option PathStep :=
  if piece.isEmpty then none
  else if piece = ['.'] then none
  else if piece = ['.', '.'] then some .parent
  else some (.name (String.ofList piece))

/-- What a path begins with: the root, the directory that it is seen from if that is written out,
or nothing. -/
def start (p : Path) : List PathStep :=
  if p.isAbsolute then [.root]
  else if (Text.pieces '/' p.text.toList).head? = some ['.'] then [.current] else []

/-- **The steps of a path** are its start and what its pieces stand for. -/
theorem steps_eq (p : Path) :
    p.steps = p.start ++ (Text.pieces '/' p.text.toList).filterMap stepOf? := by
  have hinside : ∀ (f : ℕ → List Char → List Char × Option PathStep),
      (∀ i piece, (f i piece).2 = stepOf? piece) → ∀ s : List (List Char),
        (s.mapIdx f).filterMap (·.2) = s.filterMap stepOf? := by
    intro f hf s
    rw [List.mapIdx_eq_zipIdx_map, List.filterMap_map]
    conv_rhs => rw [← List.zipIdx_map_fst 0 s, List.filterMap_map]
    exact List.filterMap_congr fun e _ => hf e.2 e.1
  rw [steps, marked, Path.pieces, start]
  cases habs : p.isAbsolute with
  | true =>
      rw [if_pos rfl, if_pos rfl, if_pos rfl, hinside _ fun i piece => by simp [stepOf?]]
      cases htext : p.text.toList with
      | nil => simp [isAbsolute, htext] at habs
      | cons c s =>
          obtain rfl : c = '/' := by simpa [isAbsolute, htext] using habs
          simp [Text.pieces, stepOf?]
  | false =>
      rw [if_neg Bool.false_ne_true, if_neg Bool.false_ne_true, if_neg Bool.false_ne_true]
      obtain ⟨first, rest, hpieces⟩ :=
        List.exists_cons_of_ne_nil (pieces_ne_nil '/' p.text.toList)
      rw [hpieces, List.mapIdx_cons, List.filterMap_cons, List.head?_cons, List.nil_append,
        hinside _ fun i piece => by simp [stepOf?]]
      by_cases hdot : first = ['.']
      · subst hdot
        simp [stepOf?]
      · simp [List.filterMap_cons, stepOf?, hdot]

lemma pieces_append_slash (s t : String) : Text.pieces '/' (s ++ "/" ++ t).toList
    = Text.pieces '/' s.toList ++ Text.pieces '/' t.toList := by
  rw [← pieces_append_sep]
  simp [String.toList_append]

/-- A joined path begins as its first part does. -/
lemma start_join (hq : q.isAbsolute = false) (hp : p.text ≠ "") : (p.join q).start = p.start := by
  have hhead : ∀ s t : String, (Text.pieces '/' (s ++ "/" ++ t).toList).head?
      = (Text.pieces '/' s.toList).head? := by
    intro s t
    rw [pieces_append_slash, List.head?_append_of_ne_nil _ (pieces_ne_nil '/' _)]
  rw [start, start, isAbsolute_join hq]
  rcases join_eq (p := p) hq with ⟨-, htext⟩ | ⟨s, htext, hjoin⟩ | ⟨hjoin, -⟩
  · exact absurd htext hp
  · have hempty := hhead s ""
    rw [String.append_empty] at hempty
    rw [hjoin, htext, hhead, hempty]
  · rw [hjoin, hhead]

/-- **The steps of a joined path** are those of its parts, unless the second begins with a `.`,
which has no meaning behind the first. -/
theorem steps_join (hq : q.isAbsolute = false) (hstart : q.start = []) :
    (p.join q).steps = p.steps ++ q.steps := by
  rcases join_eq (p := p) hq with ⟨hjoin, htext⟩ | ⟨s, htext, hjoin⟩ | ⟨hjoin, htext⟩
  · obtain ⟨text⟩ := p
    obtain rfl : text = "" := htext
    rw [hjoin]
    rfl
  · have hempty := pieces_append_slash s ""
    rw [String.append_empty] at hempty
    rw [steps_eq, steps_eq p, steps_eq q, hstart, start_join hq (by simp [htext]), hjoin, htext,
      pieces_append_slash, hempty, List.filterMap_append, List.filterMap_append]
    simp [Text.pieces, stepOf?]
  · rw [steps_eq, steps_eq p, steps_eq q, hstart, start_join hq htext, hjoin, pieces_append_slash,
      List.filterMap_append, List.nil_append, List.append_assoc]

lemma IsName.start {name : String} (h : IsName name) : (Path.mk name).start = [] := by
  have hdot : name.toList ≠ ['.'] :=
    fun heq => h.current (by rw [← String.ofList_toList (s := name), heq])
  rw [Path.start, h.isAbsolute, pieces_of_not_mem h.slash, List.head?_cons,
    if_neg Bool.false_ne_true, if_neg (by simpa using hdot)]

/-- A name is one step. -/
lemma IsName.steps {name : String} (h : IsName name) : (Path.mk name).steps = [.name name] := by
  have hne : ∀ s : List Char, name ≠ String.ofList s → name.toList ≠ s :=
    fun s hs heq => hs (by rw [← heq, String.ofList_toList])
  have hpiece : stepOf? name.toList = some (.name name) := by
    rw [stepOf?, if_neg (by simpa using h.nonempty), if_neg (hne _ h.current),
      if_neg (hne _ h.parent), String.ofList_toList]
  rw [steps_eq, h.start, pieces_of_not_mem h.slash, List.filterMap_cons, hpiece, List.nil_append,
    List.filterMap_nil]

end Path

end WorkerGen
