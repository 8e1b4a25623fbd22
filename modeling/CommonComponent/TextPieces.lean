import Mathlib.Data.List.DropRight
import Mathlib.Tactic

/-!
# Cutting a text into pieces

Two things that programs do to a text: trimming, which takes the elements of a class
off both ends, and cutting at the first separator.  What trimming leaves is described
by where it lies: a text is `front ++ trim p text ++ back` with `front` and `back` in
the class, and there is only one such middle unless it is empty.
-/

namespace TextPieces

variable {α : Type*} (p : α → Bool)

/-- `s` without the elements of `p` at its two ends. -/
def trim (s : List α) : List α := (s.dropWhile p).rdropWhile p

/-- Neither end is in `p`. -/
structure Trimmed (s : List α) : Prop where
  head : ∀ a ∈ s.head?, ¬p a
  last : ∀ a ∈ s.getLast?, ¬p a

variable {p} {s front mid back : List α}

theorem exists_trim (p : α → Bool) (s : List α) :
    ∃ front back, s = front ++ trim p s ++ back ∧ (∀ a ∈ front, p a) ∧
      ∀ a ∈ back, p a := by
  refine ⟨s.takeWhile p, (s.dropWhile p).rtakeWhile p, ?_, fun a ha => ?_, fun a ha => ?_⟩
  · rw [trim, List.append_assoc, List.rdropWhile_append_rtakeWhile,
      List.takeWhile_append_dropWhile]
  · exact List.mem_takeWhile_imp ha
  · exact List.mem_rtakeWhile_imp ha

theorem trim_subset (p : α → Bool) (s : List α) : trim p s ⊆ s := fun a ha => by
  obtain ⟨front, back, hs, -, -⟩ := exists_trim p s
  rw [hs]
  simp [ha]

theorem trimmed_trim (p : α → Bool) (s : List α) : Trimmed p (trim p s) where
  head := by
    intro a ha
    obtain ⟨rest, hrest⟩ := List.rdropWhile_prefix p (l := s.dropWhile p)
    have hhead : a ∈ (s.dropWhile p).head? := by
      rw [← hrest, List.head?_append, ← trim, Option.mem_def.mp ha]
      rfl
    have hnot := List.head?_dropWhile_not p s
    rw [Option.mem_def.mp hhead] at hnot
    simpa using hnot
  last := by
    intro a ha
    have hne : (s.dropWhile p).rdropWhile p ≠ [] := by
      rintro hnil
      rw [trim, hnil] at ha
      cases ha
    have hlast := List.rdropWhile_last_not p (s.dropWhile p) hne
    rw [trim, List.getLast?_eq_some_getLast hne, Option.mem_some_iff] at ha
    rwa [ha] at hlast

theorem dropWhile_append_of_all (hfront : ∀ a ∈ front, p a) (hhead : ∀ a ∈ mid.head?, ¬p a) :
    (front ++ mid).dropWhile p = mid := by
  rw [List.dropWhile_append_of_pos hfront]
  cases mid with
  | nil => rfl
  | cons a rest => exact List.dropWhile_cons_of_neg (hhead a rfl)

theorem rdropWhile_append_of_all (hback : ∀ a ∈ back, p a)
    (hlast : ∀ a ∈ mid.getLast?, ¬p a) : (mid ++ back).rdropWhile p = mid := by
  have hrev : (back.reverse ++ mid.reverse).dropWhile p = mid.reverse :=
    dropWhile_append_of_all (by simpa using hback) (by simpa using hlast)
  rw [List.rdropWhile, List.reverse_append, hrev, List.reverse_reverse]

theorem trim_eq (hs : s = front ++ mid ++ back) (hfront : ∀ a ∈ front, p a)
    (hback : ∀ a ∈ back, p a) (hmid : Trimmed p mid) (hne : mid ≠ []) :
    trim p s = mid := by
  have hhead : ∀ a ∈ (mid ++ back).head?, ¬p a := by
    intro a ha
    rw [List.head?_append_of_ne_nil mid hne] at ha
    exact hmid.head a ha
  rw [hs, trim, List.append_assoc, dropWhile_append_of_all hfront hhead,
    rdropWhile_append_of_all hback hmid.last]

theorem trim_eq_nil_iff : trim p s = [] ↔ ∀ a ∈ s, p a := by
  rw [trim, List.rdropWhile_eq_nil_iff]
  refine ⟨fun h a ha => ?_, fun h a ha => h a ((List.dropWhile_suffix p).subset ha)⟩
  rw [← List.takeWhile_append_dropWhile (p := p) (l := s), List.mem_append] at ha
  exact ha.elim (fun htake => List.mem_takeWhile_imp htake) (h a)

theorem trim_append_front (hfront : ∀ a ∈ front, p a) : trim p (front ++ s) = trim p s := by
  rw [trim, List.dropWhile_append_of_pos hfront, trim]

theorem trim_append_back (hback : ∀ a ∈ back, p a) : trim p (s ++ back) = trim p s := by
  by_cases hall : ∀ a ∈ s, p a
  · rw [trim_eq_nil_iff.mpr hall, trim_eq_nil_iff]
    exact fun a ha => (List.mem_append.mp ha).elim (hall a) (hback a)
  · obtain ⟨front, back', hs, hfront, hback'⟩ := exists_trim p s
    have hne : trim p s ≠ [] := fun hnil => hall (trim_eq_nil_iff.mp hnil)
    have hcut : s ++ back = front ++ trim p s ++ (back' ++ back) := by
      rw [← List.append_assoc, ← hs]
    exact trim_eq hcut hfront
      (fun a ha => (List.mem_append.mp ha).elim (hback' a) (hback a)) (trimmed_trim p s) hne

section cut

variable [DecidableEq α]

/-- What stands before the first `sep`, and what behind it. -/
def before (sep : α) (s : List α) : List α := s.takeWhile (· ≠ sep)

def behind (sep : α) (s : List α) : List α := (s.dropWhile (· ≠ sep)).drop 1

theorem not_mem_before (sep : α) (s : List α) : sep ∉ before sep s := fun hmem => by
  simpa using List.mem_takeWhile_imp hmem

theorem before_append_behind {sep : α} (hmem : sep ∈ s) :
    before sep s ++ sep :: behind sep s = s := by
  induction s with
  | nil => cases hmem
  | cons a s ih =>
      by_cases ha : a = sep
      · simp [before, behind, ha]
      · have hrest : sep ∈ s := (List.mem_cons.mp hmem).resolve_left (Ne.symm ha)
        have hbefore : before sep (a :: s) = a :: before sep s := by simp [before, ha]
        have hbehind : behind sep (a :: s) = behind sep s := by simp [behind, ha]
        rw [hbefore, hbehind, List.cons_append, ih hrest]

theorem before_eq_self {sep : α} (hmem : sep ∉ s) : before sep s = s :=
  List.takeWhile_eq_self_iff.mpr fun a ha => by simpa using ne_of_mem_of_not_mem ha hmem

theorem splitOn_of_mem {sep : α} (hmem : sep ∈ s) :
    s.splitOn sep = before sep s :: (behind sep s).splitOn sep := by
  have hcut := List.splitOn_append_cons_self_of_not_mem (not_mem_before sep s) (behind sep s)
  rwa [before_append_behind hmem] at hcut

theorem splitOn_head (sep : α) (s : List α) :
    ∃ rest, s.splitOn sep = before sep s :: rest := by
  by_cases hmem : sep ∈ s
  · exact ⟨_, splitOn_of_mem hmem⟩
  · exact ⟨[], by rw [List.splitOn_eq_singleton hmem, before_eq_self hmem]⟩

end cut

end TextPieces
