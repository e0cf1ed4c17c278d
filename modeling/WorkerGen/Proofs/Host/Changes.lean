import Mathlib
import WorkerGen.Host.World
import WorkerGen.Proofs.Files.Lookup
import WorkerGen.Proofs.FirstFault

/-!
# What requests change

A request that changes the tree puts one node into a directory, takes one out, or does one after the
other; a request that is refused changes nothing.  For each kind of request there is a lemma on what
has held before and which change has been made, if it has succeeded:

* `exists_of_makeDir`, `exists_of_create`, `exists_of_fill` and `exists_of_makeLink` for requests
  that put a node somewhere;
* `exists_of_removeDir` and `exists_of_removeFile`, and their likes in a directory that has been
  opened, for requests that take one away;
* `exists_of_rename`, and its converse `rename_eq_ok`;
* `start_eq_ok_iff` for the start of a child process.

Each of them is an inversion.  Its result names the place that the path leads to and the node that
was there, so that nobody has to open the definition of a request again, and the rules of the logic
of runs are read off these lemmas.

`World.Change` puts them together.  Whatever is asked, a world changes in its files alone, or in one
other part that the request is about (`change_answer`); what holds of all worlds that a run goes
through, whatever it asks, is shown by cases on that.
-/

namespace WorkerGen

namespace World

open FileTree

variable {w w' : World} {p : Path} {place : Place} {d : Location} {name : String}

lemma nodeAt?_eq (root : FileTree) (h : place.last = .name name) :
    root.nodeAt? place = root.at? (place.dir ++ [name]) := by
  rw [nodeAt?, location, h]

/-! ## Making

What is made stands in a directory that is there, under a name that was free, or that of a file if a
file is opened to be written. -/

lemma exists_of_makeDir (h : w.makeDir p = .ok w') : ∃ place name, w.place p = .ok place ∧
    place.last = .name name ∧ w.files.at? (place.dir ++ [name]) = none ∧
      w' = w.put place.dir name (.dir []) := by
  obtain ⟨place, hplace, h⟩ := except_bind_eq_ok.mp h
  split at h
  · next name hlast hnode =>
      rw [nodeAt?_eq _ hlast] at hnode
      exact ⟨place, name, hplace, hlast, hnode, (Except.ok.inj h).symm⟩
  · cases h

/-- Opening a file to write makes it or empties it. -/
lemma exists_of_create {opened : Location × String} (h : w.create p = .ok (opened, w')) :
    (∃ first, w.place p = .ok first) ∧
    ∃ place, w.files.finalPlace linkLimit w.workDir p = .ok place ∧ place.dir = opened.1 ∧
      place.last = .name opened.2 ∧
      (w.files.at? (opened.1 ++ [opened.2]) = none ∨
        ∃ content, w.files.at? (opened.1 ++ [opened.2]) = some (.file content)) ∧
      w' = w.put opened.1 opened.2 (.file .empty) := by
  obtain ⟨first, hfirst, h⟩ := except_bind_eq_ok.mp h
  split_ifs at h
  obtain ⟨place, hplace, h⟩ := except_bind_eq_ok.mp h
  refine ⟨⟨first, hfirst⟩, place, hplace, ?_⟩
  split at h
  · next name hlast hnode =>
      split_ifs at h
      rw [nodeAt?_eq _ hlast] at hnode
      cases h
      exact ⟨rfl, hlast, .inl hnode, rfl⟩
  · next name content hlast hnode =>
      split_ifs at h
      rw [nodeAt?_eq _ hlast] at hnode
      cases h
      exact ⟨rfl, hlast, .inr ⟨content, hnode⟩, rfl⟩
  · cases h

lemma exists_of_fill {content : ByteArray} (h : w.fill d name content = .ok w') :
    (∃ old, w.files.at? (d ++ [name]) = some (.file old)) ∧ w' = w.put d name (.file content) := by
  rw [fill] at h
  split at h
  · next old hat =>
      cases h
      exact ⟨⟨old, hat⟩, rfl⟩
  · exact absurd h (by simp)

lemma exists_of_makeLink {target : Path} (h : w.makeLink p target = .ok w') :
    ∃ d name, w' = w.put d name (.link target) := by
  obtain ⟨place, -, h⟩ := except_bind_eq_ok.mp h
  split at h
  · split_ifs at h
    exact ⟨_, _, (Except.ok.inj h).symm⟩
  · cases h

/-! ## Removing

A path that is missing and one that leads to nothing are the same error, and then nothing stands at
the path. -/

/-- A directory that is removed is empty. -/
lemma exists_of_removeDir (h : w.removeDir p = .ok w') : ∃ place name, w.place p = .ok place ∧
    place.last = .name name ∧ w.files.at? (place.dir ++ [name]) = some (.dir []) ∧
      w' = w.erase place.dir name := by
  obtain ⟨place, hplace, h⟩ := except_bind_eq_ok.mp h
  split at h
  case h_4 name hlast hnode =>
    rw [nodeAt?_eq _ hlast] at hnode
    exact ⟨place, name, hplace, hlast, hnode, (Except.ok.inj h).symm⟩
  all_goals cases h

/-- If there is nothing to remove, the path leads to nothing. -/
lemma standing_of_removeDir (h : w.removeDir p = .error .notFound) :
    w.files.standing w.workDir p = none := by
  rw [removeDir] at h
  cases hplace : w.place p with
  | error reason => exact standing_of_error hplace
  | ok place =>
      rw [hplace] at h
      rw [standing_of_place hplace]
      dsimp only [bind, Except.bind] at h
      split at h
      case h_7 hnode => exact hnode
      all_goals exact absurd h (by simp [pure, Except.pure])

lemma exists_of_removeFile (h : w.removeFile p = .ok w') : ∃ place name, w.place p = .ok place ∧
    place.last = .name name ∧ w' = w.erase place.dir name := by
  obtain ⟨place, hplace, h⟩ := except_bind_eq_ok.mp h
  split at h
  case h_3 name node hnot hlast hnode =>
    split_ifs at h
    exact ⟨place, name, hplace, hlast, (Except.ok.inj h).symm⟩
  all_goals cases h

lemma standing_of_removeFile (h : w.removeFile p = .error .notFound) :
    w.files.standing w.workDir p = none := by
  rw [removeFile] at h
  cases hplace : w.place p with
  | error reason => exact standing_of_error hplace
  | ok place =>
      rw [hplace] at h
      rw [standing_of_place hplace]
      dsimp only [bind, Except.bind] at h
      split at h
      case h_1 hnode => exact hnode
      case h_3 => split_ifs at h <;> exact absurd h (by simp [pure, Except.pure])
      all_goals exact absurd h (by simp)

lemma eq_of_removeDirIn (h : w.removeDirIn d name = .ok w') : w' = w.erase d name := by
  rw [removeDirIn] at h
  split at h
  · exact absurd h (by simp)
  · simpa using h.symm
  · exact absurd h (by simp)
  · exact absurd h (by simp)

lemma eq_of_removeFileIn (h : w.removeFileIn d name = .ok w') : w' = w.erase d name := by
  rw [removeFileIn] at h
  split at h
  · exact absurd h (by simp)
  · exact absurd h (by simp)
  · simpa using h.symm

/-! ## Renaming

Renaming asks more of the two places than making and removing do: what is moved has to suit what
stands where it goes, and a directory is not moved below itself.  `Renames` collects this, and what
the tree is afterwards. -/

/-- What has held of two places where a node has been renamed from one to the other. -/
structure Renames (w : World) (source target : Path) (old new : Place) (oldName newName : String)
    (node : FileTree) : Prop where
  old_place : w.place source = .ok old
  new_place : w.place target = .ok new
  old_last : old.last = .name oldName
  new_last : new.last = .name newName
  node_at : w.files.at? (old.dir ++ [oldName]) = some node
  slash : node.kind = .dir ∨ old.slash = false ∧ new.slash = false
  not_below : ¬ old.dir ++ [oldName] <+: new.dir
  not_above : ¬ new.dir ++ [newName] <+: old.dir

/-- A node that is renamed stands at its new name, unless the names are of one place. -/
lemma exists_of_rename {source target : Path} (h : w.rename source target = .ok w') :
    ∃ old new oldName newName node, w.Renames source target old new oldName newName node ∧
      (old.dir ++ [oldName] = new.dir ++ [newName] ∧ w' = w ∨
        old.dir ++ [oldName] ≠ new.dir ++ [newName] ∧
          mayReplace node (w.files.at? (new.dir ++ [newName])) = .ok () ∧
          w' = (w.erase old.dir oldName).put new.dir newName node) := by
  obtain ⟨-, -, h⟩ := except_bind_eq_ok.mp h
  obtain ⟨-, -, h⟩ := except_bind_eq_ok.mp h
  obtain ⟨old, hold, h⟩ := except_bind_eq_ok.mp h
  obtain ⟨new, hnew, h⟩ := except_bind_eq_ok.mp h
  split at h
  · next oldName newName hlast hlast' =>
      split at h
      · cases h
      · next node hnode =>
          rw [nodeAt?_eq _ hlast] at hnode
          rw [nodeAt?_eq _ hlast'] at h
          dsimp only at h
          split_ifs at h with hslash hbelow habove heq
          all_goals
            have hrenames : w.Renames source target old new oldName newName node := by
              refine ⟨hold, hnew, hlast, hlast', hnode, ?_, ?_, ?_⟩
              · refine or_iff_not_imp_left.mpr fun hdir => ?_
                simpa [hdir] using hslash
              · simpa [List.isPrefixOf_iff_prefix] using hbelow
              · simpa [List.isPrefixOf_iff_prefix] using habove
            refine ⟨old, new, oldName, newName, node, hrenames, ?_⟩
          · exact .inl ⟨heq, (Except.ok.inj h).symm⟩
          · obtain ⟨u, hmay, h⟩ := except_bind_eq_ok.mp h
            exact .inr ⟨heq, hmay, (Except.ok.inj h).symm⟩
  · cases h

/-- A node may be renamed to where there is nothing. -/
lemma rename_eq_ok {source target : Path} {old new : Place} {oldName newName : String}
    {node : FileTree} (h : w.Renames source target old new oldName newName node)
    (hsource : source.check = .ok ()) (htarget : target.check = .ok ())
    (hne : old.dir ++ [oldName] ≠ new.dir ++ [newName])
    (hfree : w.files.at? (new.dir ++ [newName]) = none) :
    w.rename source target = .ok ((w.erase old.dir oldName).put new.dir newName node) := by
  rw [rename, hsource, htarget, h.old_place, h.new_place]
  dsimp only [bind, Except.bind]
  rw [nodeAt?_eq _ h.old_last, nodeAt?_eq _ h.new_last, h.node_at, hfree, h.old_last, h.new_last]
  dsimp only
  have hslash : (node.kind != .dir && (old.slash || new.slash)) = false := by
    rcases h.slash with hdir | ⟨hs, hs'⟩
    · rw [hdir]; rfl
    · rw [hs, hs', Bool.or_false, Bool.and_false]
  rw [hslash, if_neg Bool.false_ne_true,
    if_neg (by simpa [List.isPrefixOf_iff_prefix] using h.not_below),
    if_neg (by simpa [List.isPrefixOf_iff_prefix] using h.not_above), if_neg hne, mayReplace]
  rfl

/-! ## Starting

A child process is started if its program is found along its search path, which is the one among the
variables that it is given, and if no text that it is given has a character that ends texts of the
system.  How it ends is taken from the world. -/

/-- Whether a child process can be started: no text that it is given has a character that ends
texts of the system, and its program is found. -/
structure CanStart (w : World) (child : Child) : Prop where
  texts : ∀ text ∈ child.texts, '\x00' ∉ text.toList
  found : w.finds (child.env.get? "PATH") child.program = true

lemma start_eq_ok_iff {child : Child} {status : ExitStatus} :
    w.start child = .ok (status, w') ↔
      w.CanStart child ∧ status = w.exit 0 ∧ w' = w.launched child := by
  rw [start]
  split_ifs with htexts hfound
  · refine iff_of_false (by simp) fun h => ?_
    obtain ⟨text, htext, hzero⟩ := List.any_eq_true.mp htexts
    exact h.1.texts text htext (List.contains_iff_mem.mp hzero)
  · have hcan : w.CanStart child := ⟨by simpa using htexts, hfound⟩
    simp [hcan, eq_comm]
  · exact iff_of_false (by simp) fun h => hfound h.1.found

/-! ## Answers

A request and the world decide on an answer, and the world after it differs in what the answer is
about.  The type has a case for each such part. -/

/-- What the answer to a request changes: the files, or another part that the request is about.
Where it is refused the files are those that there were. -/
inductive Change (w : World) : Request → World → Prop
  | files {q : Request} (files : FileTree) : Change w q { w with files := files }
  | name : Change w .randomName { w with randomNames := w.randomNames.tail }
  | log (event : LogEvent) : Change w (.log event) { w with log := event :: w.log }
  | display (item : DisplayItem) :
      Change w (.display item) { w with displayed := item :: w.displayed }
  | start {program : String} {arguments : List String} {env : Dictionary String}
      (can : w.CanStart ⟨program, arguments, env⟩) :
      Change w (.start program arguments env) (w.launched ⟨program, arguments, env⟩)

/-- A request that is refused, or only answered, changes nothing. -/
lemma Change.refl (w : World) (q : Request) : w.Change q w := .files w.files

lemma Change.changed {q : Request} {result : Except IoFault World}
    (h : ∀ w', result = .ok w' → w.Change q w') : w.Change q (w.changed result).2 := by
  cases result with
  | error reason => exact .refl w q
  | ok w' => exact h w' rfl

/-- **What any request changes.** -/
theorem change_answer (w : World) (q : Request) : w.Change q (w.answer q).2 := by
  cases q with
  | kind | openDir | entries | read | workDir => exact .refl w _
  | randomName => exact .name
  | log event => exact .log event
  | display item => exact .display item
  | create p =>
      rw [answer]
      cases hcreate : w.create p with
      | error reason => exact .refl w _
      | ok opened =>
          obtain ⟨opened, w'⟩ := opened
          obtain ⟨-, -, -, -, -, -, rfl⟩ := exists_of_create hcreate
          exact .files _
  | fill d name content =>
      refine .changed fun w' hw' => ?_
      obtain ⟨-, rfl⟩ := exists_of_fill hw'
      exact .files _
  | makeDir p =>
      refine .changed fun w' hw' => ?_
      obtain ⟨-, -, -, -, -, rfl⟩ := exists_of_makeDir hw'
      exact .files _
  | removeDir p =>
      refine .changed fun w' hw' => ?_
      obtain ⟨-, -, -, -, -, rfl⟩ := exists_of_removeDir hw'
      exact .files _
  | removeFile p =>
      refine .changed fun w' hw' => ?_
      obtain ⟨-, -, -, -, rfl⟩ := exists_of_removeFile hw'
      exact .files _
  | removeDirIn d name =>
      refine .changed fun w' hw' => ?_
      obtain rfl := eq_of_removeDirIn hw'
      exact .files _
  | removeFileIn d name =>
      refine .changed fun w' hw' => ?_
      obtain rfl := eq_of_removeFileIn hw'
      exact .files _
  | makeLink p target =>
      refine .changed fun w' hw' => ?_
      obtain ⟨-, -, rfl⟩ := exists_of_makeLink hw'
      exact .files _
  | rename source target =>
      refine .changed fun w' hw' => ?_
      obtain ⟨-, -, -, -, -, -, ⟨-, rfl⟩ | ⟨-, -, rfl⟩⟩ := exists_of_rename hw'
      · exact .refl w' _
      · exact .files _
  | start program arguments env =>
      rw [answer]
      cases hstart : w.start ⟨program, arguments, env⟩ with
      | error reason => exact .refl w _
      | ok started =>
          obtain ⟨status, w'⟩ := started
          obtain ⟨hcan, -, rfl⟩ := start_eq_ok_iff.mp hstart
          exact .start hcan

/-- Where programs are found does not change. -/
lemma Change.finds {q : Request} (h : w.Change q w') : w'.finds = w.finds := by
  cases h <;> rfl

end World

end WorkerGen
