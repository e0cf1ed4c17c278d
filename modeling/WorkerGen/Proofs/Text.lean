import Mathlib
import WorkerGen.Text.Class

/-!
# The ends of texts

What is left of a text that is known to begin or to end in some way: without the start that it is
asked for, without what stands before or behind a separator, and without white space.
-/

namespace WorkerGen.Text

/-! ## Starts -/

lemma dropStart?_append : ∀ start rest : List Char, dropStart? start (start ++ rest) = some rest
  | [], _ => rfl
  | c :: start, rest => by
      rw [List.cons_append, dropStart?, if_pos rfl]
      exact dropStart?_append start rest

lemma eq_append_of_dropStart? : ∀ {start s rest : List Char}, dropStart? start s = some rest →
    s = start ++ rest
  | [], _, _, h => Option.some_inj.mp h
  | _ :: _, [], _, h => absurd h (by simp [dropStart?])
  | p :: start, c :: s, rest, h => by
      rw [dropStart?] at h
      split_ifs at h with hpc
      rw [hpc, List.cons_append, eq_append_of_dropStart? h]

/-! ## Separators -/

/-- A text is split at the first place of a separator in one way only. -/
lemma append_cons_inj_first {α : Type} {a : α} {t v : List α} : ∀ {s u : List α}, a ∉ s → a ∉ u →
    s ++ a :: t = u ++ a :: v → s = u ∧ t = v
  | [], [], _, _, h => ⟨rfl, (List.cons.inj h).2⟩
  | [], _ :: _, _, hu, h => absurd (List.cons.inj h).1 (List.ne_of_not_mem_cons hu)
  | _ :: _, [], hs, _, h => absurd (List.cons.inj h).1.symm (List.ne_of_not_mem_cons hs)
  | _ :: _, _ :: _, hs, hu, h => by
      obtain ⟨rfl, hrest⟩ := List.cons.inj h
      obtain ⟨rfl, rfl⟩ := append_cons_inj_first (List.not_mem_of_not_mem_cons hs)
        (List.not_mem_of_not_mem_cons hu) hrest
      exact ⟨rfl, rfl⟩

/-- A text is split at the last place of a separator in one way only. -/
lemma append_cons_inj_last {α : Type} {a : α} {s t u v : List α} (ht : a ∉ t) (hv : a ∉ v)
    (h : s ++ a :: t = u ++ a :: v) : s = u ∧ t = v := by
  have hback := congrArg List.reverse h
  simp only [List.reverse_append, List.reverse_cons, List.append_assoc, List.singleton_append]
    at hback
  obtain ⟨htail, hstart⟩ := append_cons_inj_first (by simpa using ht) (by simpa using hv) hback
  exact ⟨List.reverse_inj.mp hstart, List.reverse_inj.mp htail⟩

/-! ## White space at the ends

Text that ends in something other than white space keeps that end, whatever is put before it. -/

section

variable {s t : List Char} {c : Char}

lemma trimStart_append (h : ∀ c ∈ s, isBlank c = true) : trimStart (s ++ t) = trimStart t :=
  List.dropWhile_append_of_pos h

lemma trimStart_cons (h : isBlank c = false) : trimStart (c :: s) = c :: s :=
  List.dropWhile_cons_of_neg (by simp [h])

lemma trimEnd_append_cons (h : isBlank c = false) :
    trimEnd (s ++ c :: t) = s ++ c :: trimEnd t := by
  have hback : (s ++ c :: t).reverse = t.reverse ++ c :: s.reverse := by simp
  have hc : (c :: s.reverse).dropWhile isBlank = c :: s.reverse := trimStart_cons h
  rw [trimEnd, trimEnd, hback, List.dropWhile_append, hc]
  split_ifs with hempty
  · simp [List.isEmpty_iff.mp hempty]
  · simp

lemma trimEnd_append (h : ∀ c ∈ t, isBlank c = true) : trimEnd (s ++ t) = trimEnd s := by
  have hback : ∀ c ∈ t.reverse, isBlank c = true := by simpa using h
  rw [trimEnd, List.reverse_append, List.dropWhile_append_of_pos hback, trimEnd]

lemma trimEnd_append_blank (h : isBlank c = true) : trimEnd (s ++ [c]) = trimEnd s :=
  trimEnd_append (by simpa using h)

lemma trimEnd_eq_self (h : ∀ c ∈ s, isBlank c = false) : trimEnd s = s := by
  induction s using List.reverseRecOn with
  | nil => rfl
  | append_singleton s c _ => exact trimEnd_append_cons (t := []) (h c (by simp))

lemma trim_append_blank (h : isBlank c = true) : trim (s ++ [c]) = trim s := by
  have hc : [c].dropWhile isBlank = [] := List.dropWhile_cons_of_pos h
  rw [trim, trim, trimStart, trimStart, List.dropWhile_append, hc]
  split_ifs with hempty
  · rw [List.isEmpty_iff.mp hempty]
  · exact trimEnd_append_blank h

end

end WorkerGen.Text
