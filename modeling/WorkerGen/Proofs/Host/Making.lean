import Mathlib
import WorkerGen.Proofs.Files.Growth
import WorkerGen.Proofs.Host.Runs

/-!
# Making directories and files

What `makeDirs` and `writeFile` ensure, whatever is refused on the way.  Both make directories only
where there is nothing, so that whoever knows what a new directory may spoil knows what they may
(`ensures_makeDirs`).

Making a directory with those it is in is two recursions.  The first goes up the path to the first
part of it that is there, and the second goes down again and makes the rest.  Between the two
nothing is remembered but a list of paths, and the tree may hold links, so that a path that is made
need not be below the one before it.  The proof does without that: an invariant that lets a
directory be made at each of the paths (`LetsMake`) is kept by both recursions, whatever the tree
has come to, and at the end the wanted directory is there because the last request has made or found
it.  The two theorems behind `ensures_makeDirs` are this one for particular invariants.

* `ensures_makeDirs_grown` — with the invariant that the tree has grown along the way.
* `ensures_makeDirs_onlyAdds` — with the invariant that directories have been added on the way to a
  file, below a directory that is known.
* `ensures_writeFile` — writing a file below a directory without links.  Whatever happens, nothing
  has changed but below that directory, and its path still leads to it (`OnlyBelow`).  If the file
  has been written, what stands below the directory is known: the file, directories on the way to
  it, and what was there.
-/

namespace WorkerGen

namespace FileTree

/-- Whether a path leads to a directory, links followed. -/
def DirAt (root : FileTree) (base : Location) (p : Path) : Prop :=
  (root.find true base p).map kind = .ok .dir

/-- A new directory is where it has been made. -/
lemma dirAt_put {r : FileTree} {base d : Location} {p : Path} {name : String} (hp : p.IsLegal name)
    (h : r.Reaches (startOf base p) p.way.dropLast d) (habsent : r.at? (d ++ [name]) = none) :
    (r.put d name (.dir [])).DirAt base p := by
  have hkeeps : Keeps r (r.put d name (.dir [])) :=
    .put (by simp [habsent])
  have hplace := place_of_reaches hp (h.keeps hkeeps)
  have hnode : (r.put d name (.dir [])).nodeAt? ⟨d, .name name, p.endsWithSlash⟩ = some (.dir []) :=
    at?_put_self h.isDir _
  rw [DirAt, find, locate, Bool.true_or, if_pos rfl, linkLimit, finalPlace, hplace]
  simp [hnode, bind, Except.bind, pure, Except.pure, Except.map, kind]

/-- What leads to a directory has a place with a node. -/
lemma DirAt.exists_place {r : FileTree} {base : Location} {p : Path} (h : r.DirAt base p) :
    ∃ place node, r.place base p = .ok place ∧ r.nodeAt? place = some node := by
  rw [DirAt, find, locate, Bool.true_or, if_pos rfl, linkLimit, finalPlace] at h
  cases hplace : r.place base p with
  | error reason => rw [hplace] at h; exact absurd h (by simp [bind, Except.bind, Except.map])
  | ok place =>
      cases hnode : r.nodeAt? place with
      | some node => exact ⟨place, node, rfl, hnode⟩
      | none =>
          rw [hplace] at h
          simp [bind, Except.bind, pure, Except.pure, Except.map, hnode] at h

end FileTree

namespace Script

open FileTree

section
variable {may : Request → Prop} {base : Location} {I : FileTree → Prop} {n : ℕ∞} {r : FileTree}
  {p : Path}

/-! ## Requests

Each request has its rule.  A directory is made where there is nothing, or nothing is changed; the
rule leaves it to the invariant whether that is wanted. -/

lemma ensures_kind {follow : Bool} {Q : Except IoFault FileKind → ℕ∞ → FileTree → Prop}
    (hr : I r) (hfound : Q ((r.find follow base p).map kind) n r)
    (hrefused : ∀ reason m, n = m + 1 → may (.kind follow p) → Q (.error reason) m r) :
    Ensures may base I (request (.kind follow p)) n r Q := by
  refine ensures_request hr (fun w hw => ?_) hrefused
  obtain ⟨rfl, rfl, -⟩ := hw
  exact ⟨hr, hfound⟩

/-- Adding to the log changes no file. -/
lemma ensures_log (hr : I r) : ∀ {events : List LogEvent} {n : ℕ∞},
    Ensures may base I (log events) n r fun _ _ r' => r' = r
  | [], n => ensures_done hr rfl
  | event :: rest, n => by
      refine Ensures.bind (M := fun _ _ r' => r' = r) (ensures_request hr (fun w hw => ?_)
        fun _ _ _ _ => rfl) ?_
      · obtain ⟨rfl, rfl, -⟩ := hw
        exact ⟨hr, rfl⟩
      · intro _ m r' _ _ hsame
        rw [hsame]
        exact ensures_log hr

/-- A directory is made where there is nothing, or not at all. -/
lemma ensures_makeDir {Q : Except IoFault Unit → ℕ∞ → FileTree → Prop} (hr : I r)
    (hstart : r.IsDir (startOf base p))
    (hmade : ∀ d name, p.IsLegal name → r.Reaches (startOf base p) p.way.dropLast d →
      r.at? (d ++ [name]) = none →
        I (r.put d name (.dir [])) ∧ Q (.ok ()) n (r.put d name (.dir [])))
    (herror : ∀ reason m, m ≤ n → Q (.error reason) m r) :
    Ensures may base I (request (.makeDir p)) n r Q := by
  refine ensures_request hr (fun w hw => ?_) fun reason m hm _ => herror reason m ?_
  · obtain ⟨rfl, rfl, -⟩ := hw
    rw [World.answer]
    cases hmake : w.makeDir p with
    | error reason => exact ⟨hr, herror reason n le_rfl⟩
    | ok w' =>
        obtain ⟨place, name, hplace, hlast, hnode, rfl⟩ := World.exists_of_makeDir hmake
        obtain ⟨hp, hreach⟩ := reaches_of_place hstart hplace hlast
        exact hmade place.dir name hp hreach hnode
  · rw [hm]
    exact le_self_add

/-- Whether there is a directory is found out without any change. -/
lemma ensures_needDir (hr : I r) :
    Ensures may base I (needDir p).run n r
      fun result _ r' => r' = r ∧ (result = .ok () → r.DirAt base p) := by
  have hisDir : Ensures may base I (isDir p) n r
      fun found _ r' => r' = r ∧ (found = true → r.DirAt base p) := by
    refine (ensures_kind (Q := fun answer _ r' => r' = r ∧
      (answer = .ok .dir → r.DirAt base p)) hr ⟨rfl, id⟩ fun _ _ _ _ => ⟨rfl, nofun⟩).bind ?_
    rintro (reason | found) m r' - hr' ⟨rfl, hfound⟩
    · exact ensures_done hr' ⟨rfl, nofun⟩
    · exact ensures_done hr' ⟨rfl, fun h => hfound (by rw [beq_iff_eq.mp h])⟩
  refine hisDir.liftThen fun found m r' _ hr' hfound => ?_
  obtain ⟨rfl, hfound⟩ := hfound
  cases found with
  | true => exact ensures_pure hr' ⟨rfl, fun _ => hfound rfl⟩
  | false => exact ensures_throw hr' ⟨rfl, nofun⟩

/-! ## Directories

The paths that are made are what the wanted one is in, and `LetsMake` is asked of these.  A request
to make one of them that fails is no failure as long as there is a directory. -/

/-- Whether an invariant lets a directory be made at a path. -/
def LetsMake (base : Location) (I : FileTree → Prop) (p : Path) : Prop :=
  ∀ r d name, I r → p.IsLegal name → r.Reaches (startOf base p) p.way.dropLast d →
    r.at? (d ++ [name]) = none → I (r.put d name (.dir []))

/-- Making a directory under an invariant that lets it be made. -/
lemma ensures_outcome_makeDir (hr : I r) (hstart : r.IsDir (startOf base p))
    (hmake : LetsMake base I p) :
    Ensures may base I (request (.makeDir p)) n r
      fun result _ r' => result = .ok () → r'.DirAt base p :=
  ensures_makeDir hr hstart
    (fun d name hp hreach hnone => ⟨hmake r d name hr hp hreach hnone, fun _ =>
      dirAt_put hp hreach hnone⟩)
    fun _ _ _ => nofun

lemma ensures_makeEach (hstart : ∀ r, I r → r.IsDir (startOf base p)) : ∀ {list : List Path}
    {n : ℕ∞} {r : FileTree}, (∀ a ∈ list, a.isAbsolute = p.isAbsolute ∧ LetsMake base I a) →
      I r → Ensures may base I (makeEach list).run n r
        fun result _ r' => result = .ok () → ∀ a ∈ list.getLast?, r'.DirAt base a
  | [], n, r, _, hr => ensures_pure hr (by simp)
  | a :: rest, n, r, hlist, hr => by
      rw [List.forall_mem_cons] at hlist
      obtain ⟨⟨habs, hmake⟩, hrest⟩ := hlist
      have hstart' : startOf base a = startOf base p := by rw [startOf, startOf, habs]
      -- once a directory is there, it is the last one or the others follow
      have hgo : ∀ {m : ℕ∞} {r' : FileTree}, I r' → r'.DirAt base a →
          Ensures may base I (makeEach rest).run m r'
            fun result _ r' => result = .ok () → ∀ b ∈ (a :: rest).getLast?, r'.DirAt base b := by
        intro m r' hr' hdir
        cases rest with
        | nil =>
            refine ensures_pure hr' fun _ b hb => ?_
            rw [List.getLast?_singleton, Option.mem_some_iff] at hb
            exact hb ▸ hdir
        | cons b rest =>
            refine (ensures_makeEach hstart hrest hr').weaken fun result m r' _ _ h => ?_
            rwa [List.getLast?_cons_cons]
      refine (ensures_outcome_makeDir hr (hstart' ▸ hstart r hr) hmake).liftThen ?_
      rintro (reason | u) m r' - hr' hdir
      · cases reason
        case alreadyExists =>
          refine (ensures_needDir hr').andThen ?_ ?_
          · rintro u m r'' - hr'' ⟨rfl, hdir⟩
            exact hgo hr'' (hdir rfl)
          · exact fun _ _ _ _ _ _ => by rintro ⟨⟩
        all_goals exact ensures_throw hr' (by rintro ⟨⟩)
      · exact hgo hr' (hdir rfl)

/-- The directories that are missing start with the one that is wanted. -/
lemma ensures_firstMade (hstart : ∀ r, I r → r.IsDir (startOf base p)) : ∀ {list : List Path}
    {n : ℕ∞} {r : FileTree}, (∀ a ∈ list, a.isAbsolute = p.isAbsolute ∧ LetsMake base I a) →
      I r → Ensures may base I (firstMade list).run n r
        fun result _ r' => ∀ missing, result = .ok missing →
          (∀ a ∈ missing, a ∈ list) ∧
            ∀ a ∈ list.head?, missing.head? = some a ∨
              missing = [] ∧ (r'.DirAt base a ∨ a.parent? = none)
  | [], n, r, _, hr => ensures_pure hr (by simp)
  | a :: rest, n, r, hlist, hr => by
      rw [List.forall_mem_cons] at hlist
      obtain ⟨⟨habs, hmake⟩, hrest⟩ := hlist
      have hstart' : startOf base a = startOf base p := by rw [startOf, startOf, habs]
      rw [firstMade]
      split_ifs with htop
      · refine ensures_pure hr fun missing h => ?_
        obtain rfl : [] = missing := by simpa using h
        have hparent : a.parent? = none := by
          rcases (Bool.or_eq_true _ _).mp htop with hempty | hnone
          · obtain ⟨text⟩ := a
            obtain rfl : text = "" := by simpa using hempty
            decide
          · simpa using hnone
        exact ⟨by simp, by simp [hparent]⟩
      refine (ensures_outcome_makeDir hr (hstart' ▸ hstart r hr) hmake).liftThen ?_
      rintro (reason | u) m r' - hr' hdir
      · cases reason
        case alreadyExists =>
          refine (ensures_needDir hr').andThen ?_ ?_
          · rintro u m r'' - hr'' ⟨rfl, hdir⟩
            refine ensures_pure hr'' fun missing h => ?_
            obtain rfl : [] = missing := by simpa using h
            exact ⟨by simp, by simp [hdir rfl]⟩
          · exact fun _ _ _ _ _ _ => by rintro _ ⟨⟩
        case notFound =>
          refine (ensures_firstMade hstart hrest hr').andThen ?_ ?_
          · rintro missing m r'' - hr'' hmissing
            refine ensures_pure hr'' fun all h => ?_
            obtain rfl : a :: missing = all := by simpa using h
            refine ⟨fun b hb => ?_, by simp⟩
            rcases List.mem_cons.mp hb with rfl | hb
            · exact List.mem_cons_self
            · exact List.mem_cons_of_mem a ((hmissing missing rfl).1 b hb)
          · exact fun _ _ _ _ _ _ => by rintro _ ⟨⟩
        all_goals exact ensures_throw hr' (by rintro _ ⟨⟩)
      · refine ensures_pure hr' fun missing h => ?_
        obtain rfl : [] = missing := by simpa using h
        exact ⟨by simp, by simp [hdir rfl]⟩

/-- **Making a directory** makes directories on its way only, and ends with the directory. -/
theorem ensures_makeDirs (hr : I r) (hstart : ∀ r, I r → r.IsDir (startOf base p))
    (hmake : ∀ a ∈ p.ancestors, LetsMake base I a) :
    Ensures may base I (makeDirs p).run n r
      fun result _ r' => result = .ok () → r'.DirAt base p ∨ p.parent? = none := by
  have hlist : ∀ a ∈ p.ancestors, a.isAbsolute = p.isAbsolute ∧ LetsMake base I a :=
    fun a ha => ⟨(Path.of_mem_ancestors ha).2, hmake a ha⟩
  have hhead : p.ancestors.head? = some p := rfl
  refine (ensures_firstMade hstart hlist hr).andThen ?_ ?_
  · intro missing m r' _ hr' hmissing
    obtain ⟨hmem, hfirst⟩ := hmissing missing rfl
    have hmem' : ∀ a ∈ missing.reverse, a.isAbsolute = p.isAbsolute ∧ LetsMake base I a :=
      fun a ha => hlist a (hmem a (List.mem_reverse.mp ha))
    rcases hfirst p hhead with hhead | ⟨rfl, hdir⟩
    · refine (ensures_makeEach hstart hmem' hr').weaken fun result m r'' _ _ h hresult => ?_
      exact .inl (h hresult p (by rw [List.getLast?_reverse, hhead]; rfl))
    · exact ensures_pure hr' fun _ => hdir
  · exact fun _ _ _ _ _ _ => nofun

/-- Making a directory lets the tree grow along its way, if that does not go back. -/
theorem ensures_makeDirs_grown (hsteps : ∀ name ∈ p.way, IsStep name)
    (hr : r.IsDir (startOf base p)) :
    Ensures may base (Grown (startOf base p) p.way r) (makeDirs p).run n r fun _ _ _ => True := by
  refine (ensures_makeDirs (I := Grown (startOf base p) p.way r) (.inl rfl) (fun r' hr' => ?_)
    fun a ha r' d m hr' hlegal hd habsent => ?_).weaken fun _ _ _ _ _ _ => trivial
  · rw [← label?_eq_dir_iff] at hr ⊢
    exact hr'.label?_of_some hr
  · obtain ⟨hbelow, habs⟩ := Path.of_mem_ancestors ha
    rw [hlegal.way_eq] at hbelow
    rw [startOf, habs, ← startOf] at hd
    exact hr'.put hsteps hbelow hlegal.notLong hd habsent

/-! ## Files

A file is opened, which makes it or empties it, and then written to.  Between the two it is there
without its content, so the invariant has to allow that. -/

/-- Opening a file to write makes it or empties it, where no link is in its place. -/
lemma ensures_create {Q : Except IoFault (Location × String) → ℕ∞ → FileTree → Prop}
    (hr : I r) (hstart : r.IsDir (startOf base p))
    (hlink : ∀ d name, p.IsLegal name → r.Reaches (startOf base p) p.way.dropLast d →
      ∀ target, r.at? (d ++ [name]) ≠ some (.link target))
    (hmade : ∀ d name, p.IsLegal name → r.Reaches (startOf base p) p.way.dropLast d →
      (∀ old, r.at? (d ++ [name]) = some old → ∃ content, old = .file content) →
        I (r.put d name (.file .empty)) ∧ Q (.ok (d, name)) n (r.put d name (.file .empty)))
    (herror : ∀ reason m, m ≤ n → Q (.error reason) m r) :
    Ensures may base I (request (.create p)) n r Q := by
  refine ensures_request hr (fun w hw => ?_) fun reason m hm _ => herror reason m ?_
  · obtain ⟨rfl, rfl, -⟩ := hw
    rw [World.answer]
    cases hcreate : w.create p with
    | error reason => exact ⟨hr, herror reason n le_rfl⟩
    | ok opened =>
        obtain ⟨⟨d, name⟩, w'⟩ := opened
        obtain ⟨⟨place, hplace⟩, final, hfinal, hd, hlast, hold, rfl⟩ :=
          World.exists_of_create hcreate
        have hnot : ∀ target, w.files.nodeAt? place ≠ some (.link target) := by
          intro target hnode
          by_cases hname : ∃ name, place.last = .name name
          · obtain ⟨name, hname⟩ := hname
            obtain ⟨hp, hreach⟩ := reaches_of_place hstart hplace hname
            rw [World.nodeAt?_eq _ hname] at hnode
            exact hlink place.dir name hp hreach target hnode
          · obtain ⟨entries, hdir⟩ := isDir_location hstart hplace fun name h => hname ⟨name, h⟩
            rw [nodeAt?, hdir] at hnode
            exact absurd hnode (by simp)
        rw [finalPlace_of_not_link hplace hnot] at hfinal
        obtain rfl : place = final := by simpa using hfinal
        obtain ⟨hp, hreach⟩ := reaches_of_place hstart hplace hlast
        dsimp only at hd hp hold
        rw [hd] at hreach
        refine hmade d name hp hreach fun old hat => ?_
        rcases hold with hnone | ⟨content, hfile⟩
        · exact absurd (hnone.symm.trans hat) (by simp)
        · exact ⟨content, by simpa using hat.symm.trans hfile⟩
  · rw [hm]
    exact le_self_add

/-- Writing to a file that has been opened gives it its content. -/
lemma ensures_fill {d : Location} {name : String} {content : ByteArray}
    {Q : Except IoFault Unit → ℕ∞ → FileTree → Prop} (hr : I r)
    (hfilled : I (r.put d name (.file content)) ∧
      Q (.ok ()) n (r.put d name (.file content)))
    (herror : ∀ reason m, m ≤ n → Q (.error reason) m r) :
    Ensures may base I (request (.fill d name content)) n r Q := by
  refine ensures_request hr (fun w hw => ?_) fun reason m hm _ => herror reason m ?_
  · obtain ⟨rfl, rfl, -⟩ := hw
    rw [World.answer]
    cases hfill : w.fill d name content with
    | error reason => exact ⟨hr, herror reason n le_rfl⟩
    | ok w' =>
        obtain ⟨-, rfl⟩ := World.exists_of_fill hfill
        exact hfilled
  · rw [hm]
    exact le_self_add

end

/-! ## Files below a directory

The files of a build are written below a directory that has just been made or emptied.  There is no
link below it, so that each goes where its names say, and what one file has added is never in the
way of the next but as a directory. -/

section
variable {may : Request → Prop} {base B : Location} {r₀ r : FileTree} {b f : Path} {n : ℕ∞}

/-- What holds while directories are made on the way from a directory down to a file: some have
been added. -/
structure OnlyAdds (B : Location) (way : List String) (r₀ r : FileTree) : Prop where
  sameOff : SameOff [B] r₀ r
  label? : ∀ l, r.label? l = r₀.label? l ∨
    r₀.label? l = none ∧ r.label? l = some .dir ∧ ∃ c, c <+: way ∧ l = B ++ c

namespace OnlyAdds

variable {way : List String}

lemma refl (B : Location) (way : List String) (r : FileTree) : OnlyAdds B way r r :=
  ⟨SameOff.refl _ r, fun _ => .inl rfl⟩

lemma keeps (h : OnlyAdds B way r₀ r) : Keeps r₀ r := by
  intro l x hl _
  rcases h.label? l with hsame | ⟨hnone, -, -⟩
  · exact hsame.trans hl
  · exact absurd (hnone.symm.trans hl) (by simp)

lemma linkless (h : OnlyAdds B way r₀ r) (hlinks : r₀.Linkless B) : r.Linkless B := by
  intro l target hl
  rcases h.label? l with hsame | ⟨-, hdir, -⟩
  · rw [hsame]
    exact hlinks l target hl
  · rw [hdir]
    simp

end OnlyAdds

/-- On the way to a file below a directory, what is new is new there. -/
lemma letsMake_onlyAdds {way : List String} {a : Path}
    (hreach : r₀.Reaches (startOf base b) b.way B) (hlinks : r₀.Linkless B)
    (hsteps : ∀ name ∈ way, IsStep name) (habs : a.isAbsolute = b.isAbsolute)
    (ha : a.way <+: b.way ++ way) : LetsMake base (OnlyAdds B way r₀) a := by
  intro r d name hr hend hd habsent
  have hstart : startOf base a = startOf base b := by rw [startOf, startOf, habs]
  rw [hstart] at hd
  have hreach' := hreach.keeps hr.keeps
  rcases List.prefix_or_prefix_of_prefix ha (List.prefix_append b.way way) with hab | hba
  · -- what leads to the directory is there
    obtain ⟨more, hmore⟩ := hab
    rw [hend.way_eq, List.append_assoc, List.singleton_append] at hmore
    rw [← hmore] at hreach'
    exact absurd hreach' (hd.not_of_absent hend.isStep habsent)
  · obtain ⟨c, hc⟩ := hba
    rw [← hc, List.prefix_append_right_inj] at ha
    have hc' : c ≠ [] := by
      rintro rfl
      rw [List.append_nil] at hc
      rw [hc, hend.way_eq] at hreach'
      exact hd.not_of_absent hend.isStep habsent hreach'
    have hlast : c = c.dropLast ++ [name] := by
      have hend' := hend.way_eq
      rw [← hc, List.dropLast_append_of_ne_nil hc', List.append_assoc,
        List.append_cancel_left_eq] at hend'
      exact hend'
    have hdrop : a.way.dropLast = b.way ++ c.dropLast := by
      rw [← hc, List.dropLast_append_of_ne_nil hc']
    rw [hdrop] at hd
    have hdB : d = B ++ c.dropLast := hd.of_linkless hreach' (hr.linkless hlinks) fun m hm =>
      hsteps m (ha.subset (List.dropLast_subset c hm))
    have hloc : d ++ [name] = B ++ c := by rw [hdB, List.append_assoc, ← hlast]
    refine ⟨hr.sameOff.trans ((SameOff.put r d name (.dir [])).widen ?_), fun l => ?_⟩
    · rw [hloc]
      simp
    · rw [label?_put_leaf hd.isDir isLeaf_dir_nil (by simp [habsent])]
      split_ifs with hl
      · have hnone : r.label? l = none := by rw [hl, label?_eq_none_iff, habsent]
        refine .inr ⟨?_, rfl, c, ha, hl.trans hloc⟩
        rcases hr.label? l with hsame | ⟨hnone', -, -⟩
        · exact hsame.symm.trans hnone
        · exact hnone'
      · exact hr.label? l

/-- A file below a directory without links is where its names say. -/
lemma location_join {d : Location} {name : String} (hf : f.IsInside)
    (hreach : r.Reaches (startOf base b) b.way B) (hlinks : r.Linkless B)
    (hend : (b.join f).IsLegal name)
    (hd : r.Reaches (startOf base (b.join f)) (b.join f).way.dropLast d) :
    d = B ++ f.way.dropLast ∧ d ++ [name] = B ++ f.way := by
  have hway : (b.join f).way = b.way ++ f.way := Path.way_join hf.relative
  have hstart : startOf base (b.join f) = startOf base b := by
    rw [startOf, startOf, Path.isAbsolute_join hf.relative]
  have hdropLast : (b.join f).way.dropLast = b.way ++ f.way.dropLast := by
    rw [hway, List.dropLast_append_of_ne_nil hf.named]
  rw [hstart, hdropLast] at hd
  have hdB : d = B ++ f.way.dropLast := hd.of_linkless hreach hlinks fun m hm =>
    hf.isStep (List.dropLast_subset _ hm)
  have hname := hend.way_eq
  rw [hdropLast, hway, List.append_assoc, List.append_cancel_left_eq] at hname
  exact ⟨hdB, by rw [hdB, List.append_assoc, ← hname]⟩

/-- Making the directory that a file is in adds directories on the way to the file only. -/
lemma ensures_makeDirs_onlyAdds {parent : Path} (hf : f.IsInside)
    (hparent : (b.join f).parent? = some parent)
    (hreach : r.Reaches (startOf base b) b.way B) (hlinks : r.Linkless B) :
    Ensures may base (OnlyAdds B f.way.dropLast r) (makeDirs parent).run n r
      fun _ _ r' => OnlyAdds B f.way.dropLast r r' := by
  have habs : parent.isAbsolute = b.isAbsolute := by
    rw [Path.isAbsolute_parent? hparent, Path.isAbsolute_join hf.relative]
  have hway : parent.way = b.way ++ f.way.dropLast := by
    rw [Path.way_parent? hparent, Path.way_join hf.relative,
      List.dropLast_append_of_ne_nil hf.named]
  have hstart : startOf base parent = startOf base b := by rw [startOf, startOf, habs]
  have hmake : ∀ a ∈ parent.ancestors, LetsMake base (OnlyAdds B f.way.dropLast r) a := by
    intro a ha
    obtain ⟨hbelow, habs'⟩ := Path.of_mem_ancestors ha
    exact letsMake_onlyAdds hreach hlinks (fun m hm => hf.isStep (List.dropLast_subset _ hm))
      (habs'.trans habs) (hway ▸ hbelow)
  refine (ensures_makeDirs (.refl B _ r) (fun r' hr' => ?_) hmake).weaken fun _ _ _ _ hr' _ => hr'
  rw [hstart]
  exact (hreach.keeps hr'.keeps).isDir_start

/-! ### What is kept below a directory

The invariant of writing a file has to hold between any two requests, so it says less than what
holds at the end.  It is enough to know where the next file goes. -/

/-- Whether nothing has changed but below a directory, to which its path still leads. -/
def OnlyBelow (base B : Location) (b : Path) (r r' : FileTree) : Prop :=
  SameOff [B] r r' ∧ r'.Reaches (startOf base b) b.way B

lemma OnlyAdds.onlyBelow {way : List String} (h : OnlyAdds B way r₀ r)
    (hreach : r₀.Reaches (startOf base b) b.way B) : OnlyBelow base B b r₀ r :=
  ⟨h.sameOff, hreach.keeps h.keeps⟩

/-- A file may be put below the directory, where none was or another one. -/
lemma OnlyBelow.put_file {d : Location} {name : String} {content : ByteArray} {way : List String}
    (h : OnlyBelow base B b r₀ r) (hloc : d ++ [name] = B ++ way)
    (hold : ∀ old, r.at? (d ++ [name]) = some old → ∃ content, old = .file content) :
    OnlyBelow base B b r₀ (r.put d name (.file content)) :=
  ⟨h.1.trans ((SameOff.put r d name _).widen (by simp [hloc])), h.2.keeps (.put hold)⟩

/-- Opening a file below a directory without links makes the file or empties it. -/
lemma ensures_create_below (hf : f.IsInside) (hr : OnlyBelow base B b r₀ r)
    (hlinks : r.Linkless B) :
    Ensures may base (OnlyBelow base B b r₀) (request (.create (b.join f))) n r
      fun result _ r' => ∀ d name, result = .ok (d, name) →
        d = B ++ f.way.dropLast ∧ d ++ [name] = B ++ f.way ∧ r.IsDir d ∧
          (∀ old, r.at? (d ++ [name]) = some old → ∃ content, old = .file content) ∧
          r' = r.put d name (.file .empty) := by
  have hstart : r.IsDir (startOf base (b.join f)) := by
    rw [startOf, Path.isAbsolute_join hf.relative]
    exact hr.2.isDir_start
  refine ensures_create hr hstart ?_ ?_ fun _ _ _ => by simp
  · intro d name hend hd target hlink
    obtain ⟨-, hloc⟩ := location_join hf hr.2 hlinks hend hd
    refine hlinks (d ++ [name]) target (by simp [hloc]) ?_
    exact label?_eq_link_iff.mpr hlink
  · intro d name hend hd hold
    obtain ⟨hdB, hloc⟩ := location_join hf hr.2 hlinks hend hd
    refine ⟨hr.put_file hloc hold, fun d' name' h => ?_⟩
    obtain ⟨rfl, rfl⟩ : d = d' ∧ name = name' := by simpa using h
    exact ⟨hdB, hloc, hd.isDir, hold, rfl⟩

/-- What stands on the way to the directory that a file is in are directories. -/
lemma label?_above {way l : List String} (hdir : r.IsDir (B ++ way.dropLast)) (hl : l <+: way)
    (hne : l ≠ way) : r.label? (B ++ l) = some .dir := by
  rw [label?_eq_dir_iff]
  refine hdir.above ((List.prefix_append_right_inj B).mpr ?_)
  have hnamed : way ≠ [] := by
    rintro rfl
    exact hne (List.prefix_nil.mp hl)
  rw [← List.dropLast_append_getLast hnamed, List.prefix_concat_iff] at hl
  exact hl.resolve_left fun h => hne (by rw [h, List.dropLast_append_getLast])

/-- What stands below a directory when a file has been put there, behind the directories that have
been added for it. -/
lemma OnlyAdds.label?_put {way l : List String} {d : Location} {name : String}
    {content : ByteArray} (h : OnlyAdds B way.dropLast r₀ r) (hdB : d = B ++ way.dropLast)
    (hloc : d ++ [name] = B ++ way) (hdir : r.IsDir d)
    (hold : ∀ old, r.at? (d ++ [name]) = some old → ∃ content, old = .file content) :
    (r.put d name (.file content)).label? (B ++ l) =
      if l = way then some (.file content)
      else if l <+: way then some .dir else r₀.label? (B ++ l) := by
  have hleaf : ∀ old, r.at? (d ++ [name]) = some old → old.IsLeaf := by
    intro old hat
    obtain ⟨content, rfl⟩ := hold old hat
    exact isLeaf_file content
  rw [label?_put_leaf hdir (isLeaf_file content) hleaf, hloc]
  simp only [List.append_cancel_left_eq]
  split_ifs with hl hbelow
  · rfl
  · exact label?_above (hdB ▸ hdir) hbelow hl
  · rcases h.label? (B ++ l) with hsame | ⟨-, -, c, hc, hlc⟩
    · exact hsame
    · rw [List.append_cancel_left_eq] at hlc
      exact absurd (hlc ▸ hc.trans (List.dropLast_prefix _)) hbelow

/-- There was no file where a directory is now. -/
lemma OnlyAdds.not_file_above {way l : List String} (h : OnlyAdds B way.dropLast r₀ r)
    (hdir : r.IsDir (B ++ way.dropLast)) (hl : l <+: way) (hne : l ≠ way) (old : ByteArray) :
    r₀.label? (B ++ l) ≠ some (.file old) := by
  intro hfile
  rcases h.label? (B ++ l) with hsame | ⟨hnone, -, -⟩
  · rw [← hsame, label?_above hdir hl hne] at hfile
    exact absurd hfile (by simp)
  · exact absurd (hnone.symm.trans hfile) (by simp)

/-- **Writing a file** below a directory without links changes the file only, and adds the
directories on the way to it. -/
theorem ensures_writeFile {content : ByteArray} (hf : f.IsInside)
    (hreach : r.Reaches (startOf base b) b.way B) (hlinks : r.Linkless B) :
    Ensures may base (OnlyBelow base B b r)
      (writeFile (b.join f) content).run n r fun result _ r' => result = .ok () →
        (∀ l, r'.label? (B ++ l) = if l = f.way then some (.file content)
          else if l <+: f.way then some .dir else r.label? (B ++ l)) ∧
        ∀ l old, l <+: f.way → l ≠ f.way → r.label? (B ++ l) ≠ some (.file old) := by
  obtain ⟨parent, hparent⟩ := Path.exists_parent? (p := b.join f)
    (by rw [Path.way_join hf.relative]; simp [hf.named])
  rw [writeFile, hparent]
  refine Ensures.andThen ((ensures_makeDirs_onlyAdds hf hparent hreach hlinks).mono
    (fun r' hr' => hr'.onlyBelow hreach) fun _ _ _ _ _ hadd => hadd) ?_ fun _ _ _ _ _ _ => nofun
  intro u m r' _ hr' hadd
  refine Ensures.andThen (ensures_create_below hf hr' (hadd.linkless hlinks)) ?_
    fun _ _ _ _ _ _ => nofun
  rintro ⟨d, name⟩ m r'' - hr'' hopened
  obtain ⟨hdB, hloc, hdir, hold, rfl⟩ := hopened d name rfl
  have hnew : (r'.put d name (.file .empty)).at? (d ++ [name]) = some (.file .empty) :=
    at?_put_self hdir _
  refine ensures_fill hr'' ⟨hr''.put_file hloc (by simp [hnew]), fun _ => ⟨fun l => ?_, ?_⟩⟩
    fun _ _ _ => nofun
  · rw [label?_put_put hdir, hadd.label?_put hdB hloc hdir hold]
  · exact fun l old hl hne => hadd.not_file_above (hdB ▸ hdir) hl hne old

end

end Script

end WorkerGen
