import Mathlib.Algebra.GroupWithZero.Nat
import Mathlib.Data.List.Basic

/-!
# Frames out of a buffer

A reader appends what arrives to a buffer, and takes frames off its front for as long as it
finds a separator.  `cut` is the first frame, `drain` all of them, and `drain_append` says
that draining in between does not change what is found: how the input is split into pieces
does not matter.  A writer that ends each frame with the separator is read back if no frame
contains it, not even together with the separator that follows (`drain_frames`).
-/

namespace Intellivault.Lib.Framing

variable {α : Type} [DecidableEq α] {sep xs ys frame rest : List α}

/-- What comes before the first separator, and what comes after it. -/
def cut (sep : List α) : List α → Option (List α × List α)
  | [] => none
  | x :: xs =>
      if sep.isPrefixOf (x :: xs) then some ([], (x :: xs).drop sep.length)
      else (cut sep xs).map fun parts => (x :: parts.1, parts.2)

theorem cut_eq_some (found : cut sep xs = some (frame, rest)) : xs = frame ++ sep ++ rest := by
  induction xs generalizing frame with
  | nil => cases found
  | cons x xs ih =>
      rw [cut] at found
      split at found
      · rename_i here
        cases found
        obtain ⟨tail, split⟩ := List.isPrefixOf_iff_prefix.mp here
        rw [← split, List.drop_left, List.nil_append]
      · obtain ⟨⟨frame', rest'⟩, later, same⟩ := Option.map_eq_some_iff.mp found
        cases same
        rw [ih later]
        rfl

/-- More input does not move the first separator. -/
theorem cut_append (found : cut sep xs = some (frame, rest)) :
    cut sep (xs ++ ys) = some (frame, rest ++ ys) := by
  induction xs generalizing frame with
  | nil => cases found
  | cons x xs ih =>
      have whole := cut_eq_some found
      rw [cut] at found
      rw [List.cons_append, cut, ← List.cons_append]
      split at found
      · rename_i here
        cases found
        obtain ⟨tail, split⟩ := List.isPrefixOf_iff_prefix.mp here
        rw [if_pos, ← split, List.append_assoc, List.drop_left, List.drop_left]
        exact List.isPrefixOf_iff_prefix.mpr ⟨tail ++ ys, by rw [← split, List.append_assoc]⟩
      · rename_i here
        obtain ⟨⟨frame', rest'⟩, later, same⟩ := Option.map_eq_some_iff.mp found
        cases same
        -- The separator fits into what was there, so it is not completed by what is new.
        have fits : sep.length ≤ (x :: xs).length := by
          rw [whole, List.length_append, List.length_append]
          omega
        rw [if_neg, ih later]
        · rfl
        · intro longer
          refine here (List.isPrefixOf_iff_prefix.mpr ?_)
          exact List.prefix_of_prefix_length_le (List.isPrefixOf_iff_prefix.mp longer)
            (List.prefix_append _ _) fits

variable [NeZero sep.length]

theorem cut_shorter (found : cut sep xs = some (frame, rest)) : rest.length < xs.length := by
  have pos := Nat.pos_of_ne_zero (NeZero.ne sep.length)
  rw [cut_eq_some found, List.length_append, List.length_append]
  omega

/-- All frames of a buffer, and what is left in it. -/
def drain (sep : List α) [NeZero sep.length] (buffer : List α) : List (List α) × List α :=
  match _found : cut sep buffer with
  | none => ([], buffer)
  | some (frame, rest) => (frame :: (drain sep rest).1, (drain sep rest).2)
termination_by buffer.length
decreasing_by all_goals exact cut_shorter _found

theorem drain_of_none (none : cut sep xs = none) : drain sep xs = ([], xs) := by
  rw [drain]
  split
  · rfl
  · rename_i found
    rw [none] at found
    cases found

theorem drain_of_some (found : cut sep xs = some (frame, rest)) :
    drain sep xs = (frame :: (drain sep rest).1, (drain sep rest).2) := by
  rw [drain]
  split
  · rename_i none
    rw [none] at found
    cases found
  · rename_i found'
    rw [found'] at found
    cases found
    rfl

/-- **Draining in between changes nothing.** -/
theorem drain_append (xs ys : List α) :
    drain sep (xs ++ ys) = ((drain sep xs).1 ++ (drain sep ((drain sep xs).2 ++ ys)).1,
      (drain sep ((drain sep xs).2 ++ ys)).2) := by
  generalize size : xs.length = n
  induction n using Nat.strongRecOn generalizing xs with
  | ind n ih =>
      cases found : cut sep xs with
      | none => rw [drain_of_none found, List.nil_append]
      | some parts =>
          obtain ⟨frame, rest⟩ := parts
          have shorter := cut_shorter found
          rw [drain_of_some found, drain_of_some (cut_append found), ih rest.length (by omega) rest rfl]
          rfl

/-- What is left holds no separator. -/
theorem drain_rest (xs : List α) : drain sep (drain sep xs).2 = ([], (drain sep xs).2) := by
  generalize size : xs.length = n
  induction n using Nat.strongRecOn generalizing xs with
  | ind n ih =>
      cases found : cut sep xs with
      | none => rw [drain_of_none found, drain_of_none found]
      | some parts =>
          have shorter := cut_shorter found
          rw [drain_of_some found]
          exact ih parts.2.length (by omega) parts.2 rfl

theorem drain_frames {frames : List (List α)}
    (clear : ∀ frame ∈ frames, ∀ rest, cut sep (frame ++ (sep ++ rest)) = some (frame, rest)) :
    drain sep (frames.flatMap (· ++ sep)) = (frames, []) := by
  induction frames with
  | nil => exact drain_of_none rfl
  | cons frame frames ih =>
      have first := clear frame List.mem_cons_self (frames.flatMap (· ++ sep))
      rw [List.flatMap_cons, List.append_assoc, drain_of_some first,
        ih fun frame mem => clear frame (List.mem_cons_of_mem _ mem)]

/-! ## Lines, and an empty line at the end -/

section Lines

variable {n : α} {line body : List α}

theorem cut_cons {x : α} (plain : x ≠ n) :
    cut [n, n] (x :: xs) = (cut [n, n] xs).map fun parts => (x :: parts.1, parts.2) := by
  rw [cut, if_neg]
  intro here
  rw [List.isPrefixOf_iff_prefix, List.cons_prefix_cons] at here
  exact plain here.1.symm

theorem cut_plain (plain : n ∉ line) :
    cut [n, n] (line ++ xs) = (cut [n, n] xs).map fun parts => (line ++ parts.1, parts.2) := by
  induction line with
  | nil => exact Option.map_id'.symm ▸ rfl
  | cons x line ih =>
      rw [List.mem_cons, not_or] at plain
      rw [List.cons_append, cut_cons (Ne.symm plain.1), ih plain.2, Option.map_map]
      rfl

/-- A frame of one line. -/
theorem cut_line (plain : n ∉ line) : cut [n, n] (line ++ ([n, n] ++ rest)) = some (line, rest) := by
  rw [cut_plain plain, List.cons_append, cut, if_pos (by simp)]
  simp

/-- A frame with one more line; the others do not begin with an empty one. -/
theorem cut_lines {x : α} (plain : n ∉ line) (other : x ≠ n)
    (found : cut [n, n] (x :: body ++ ([n, n] ++ rest)) = some (x :: body, rest)) :
    cut [n, n] (line ++ n :: x :: body ++ ([n, n] ++ rest)) = some (line ++ n :: x :: body, rest) := by
  have single : cut [n, n] (n :: (x :: body ++ ([n, n] ++ rest))) = some (n :: x :: body, rest) := by
    rw [cut, if_neg, found]
    · rfl
    · intro here
      rw [List.isPrefixOf_iff_prefix, List.cons_prefix_cons, List.cons_append,
        List.cons_prefix_cons] at here
      exact other here.2.1.symm
  rw [List.append_assoc, cut_plain plain, List.cons_append, single]
  rfl

end Lines

end Intellivault.Lib.Framing
