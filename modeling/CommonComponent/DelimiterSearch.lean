import CommonComponent.StreamMachine
import Mathlib.Data.List.Infix
import Mathlib.Tactic

/-!
# Searching a stream for a delimiter

A search remembers only how much of the delimiter stands at the end of what it has
read.  A letter that does not go on with the delimiter gives the remembered part out
as data, and is looked at again as the first letter of another attempt.

That is right for a delimiter whose first letter comes only once in it: a machine
that follows the search finds the delimiter where it stands first and gives out
exactly what is in front of it.
-/

namespace DelimiterSearch

open StreamMachine

variable {α σ : Type*} [DecidableEq α]

/-- With `k` letters of the delimiter remembered, how many are behind the letter `c`,
and what is given out. -/
def step (delim : List α) (k : ℕ) (c : α) : ℕ × List α :=
  if delim[k]? = some c then (k + 1, [])
  else if delim.head? = some c then (1, delim.take k)
  else (0, delim.take k ++ [c])

/-- A machine follows the search: `searching k out` are its states with `k` letters
remembered and `out` given out, `found out` those behind the delimiter. -/
structure Follows (delim : List α) (machine : σ → α → Option σ)
    (searching : ℕ → List α → σ → Prop) (found : List α → σ → Prop) : Prop where
  next : ∀ {k out s} (c : α), k < delim.length → searching k out s →
    ∃ s', machine s c = some s' ∧
      if (step delim k c).1 = delim.length then found (out ++ (step delim k c).2) s'
      else searching (step delim k c).1 (out ++ (step delim k c).2) s'

variable {x : α} {xs : List α} {machine : σ → α → Option σ}
  {searching : ℕ → List α → σ → Prop} {found : List α → σ → Prop}

theorem step_expected {delim : List α} {k : ℕ} (hk : k < delim.length) :
    step delim k delim[k] = (k + 1, []) := by
  simp [step, List.getElem?_eq_getElem hk]

/-- The first letter begins another attempt, from wherever the search is. -/
theorem step_first (hx : x ∉ xs) {k : ℕ} (hk : k < (x :: xs).length) :
    step (x :: xs) k x = (1, (x :: xs).take k) := by
  cases k with
  | zero => simp [step]
  | succ k =>
      have hother : xs[k]? ≠ some x := fun h => hx (List.mem_of_getElem? h)
      simp [step, hother]

/-- The letters of the delimiter that are missing. -/
theorem Follows.rest {delim : List α} (h : Follows delim machine searching found) {k : ℕ}
    {out : List α} {s : σ} (hk : k < delim.length) (hs : searching k out s) :
    ∃ s', (delim.drop k).foldlM machine s = some s' ∧ found out s' := by
  induction hleft : delim.length - k generalizing k s with
  | zero => omega
  | succ left ih =>
      obtain ⟨s', hmachine, hnext⟩ := h.next delim[k] hk hs
      rw [step_expected hk, List.append_nil] at hnext
      rw [List.drop_eq_getElem_cons hk, List.foldlM_cons, hmachine, Option.bind_eq_bind,
        Option.bind_some]
      by_cases hlast : k + 1 = delim.length
      · rw [if_pos hlast] at hnext
        refine ⟨s', ?_, hnext⟩
        rw [hlast, List.drop_length]
        rfl
      · rw [if_neg hlast] at hnext
        exact ih (by omega) hnext (by omega)

theorem Follows.finds_from (h : Follows (x :: xs) machine searching found) (hx : x ∉ xs)
    {k : ℕ} {out data : List α} {s : σ} (hk : k < (x :: xs).length) (hs : searching k out s)
    (hdata : ¬(x :: xs) <:+: (x :: xs).take k ++ data) :
    ∃ s', (data ++ x :: xs).foldlM machine s = some s' ∧
      found (out ++ ((x :: xs).take k ++ data)) s' := by
  induction data generalizing k out s with
  | nil =>
      obtain ⟨s', hmachine, hnext⟩ := h.next x hk hs
      rw [step_first hx hk] at hnext
      rw [List.nil_append, List.foldlM_cons, hmachine, Option.bind_eq_bind, Option.bind_some,
        List.append_nil]
      by_cases hone : 1 = (x :: xs).length
      · rw [if_pos hone] at hnext
        have hnil : xs = [] := List.length_eq_zero_iff.mp (Nat.succ_injective hone).symm
        exact ⟨s', by rw [hnil]; rfl, hnext⟩
      · rw [if_neg hone] at hnext
        have hmore : 1 < (x :: xs).length := by
          rw [List.length_cons] at hone ⊢
          omega
        exact h.rest hmore hnext
  | cons c data ih =>
      obtain ⟨s', hmachine, hnext⟩ := h.next c hk hs
      rw [List.cons_append, List.foldlM_cons, hmachine, Option.bind_eq_bind, Option.bind_some]
      unfold step at hnext
      split at hnext
      next hexpected =>
        -- The delimiter would be complete in front of its first place.
        have htake : (x :: xs).take (k + 1) = (x :: xs).take k ++ [c] := by
          rw [List.take_add_one, hexpected]
          rfl
        have hsplit : (x :: xs).take k ++ c :: data = (x :: xs).take (k + 1) ++ data := by
          rw [htake, List.append_assoc]
          rfl
        rw [hsplit] at hdata ⊢
        have hmore : k + 1 < (x :: xs).length := by
          refine lt_of_le_of_ne hk fun hall => hdata ?_
          rw [hall, List.take_length]
          exact (List.prefix_append _ _).isInfix
        rw [if_neg hmore.ne, List.append_nil] at hnext
        exact ih hmore hnext hdata
      next =>
        split at hnext
        next hfirst =>
          rw [List.head?_cons, Option.some.injEq] at hfirst
          subst hfirst
          have hlater : ¬(x :: xs) <:+: (x :: xs).take 1 ++ data := fun hinside =>
            hdata (hinside.trans (List.suffix_append _ _).isInfix)
          by_cases hone : 1 = (x :: xs).length
          · have hnil : xs = [] := List.length_eq_zero_iff.mp (Nat.succ_injective hone).symm
            subst hnil
            exact absurd (List.prefix_append _ _).isInfix hlater
          · rw [if_neg hone] at hnext
            have hmore : 1 < (x :: xs).length := by
              rw [List.length_cons] at hone ⊢
              omega
            have hfound := ih hmore hnext hlater
            rwa [List.append_assoc] at hfound
        next =>
          have hnotNil : ¬(0 : ℕ) = (x :: xs).length := (Nat.succ_ne_zero _).symm
          rw [if_neg hnotNil] at hnext
          have hlater : ¬(x :: xs) <:+: (x :: xs).take 0 ++ data := fun hinside =>
            hdata (hinside.trans ((List.suffix_cons _ _).trans (List.suffix_append _ _)).isInfix)
          have hfound := ih (Nat.succ_pos _) hnext hlater
          rwa [List.take_zero, List.nil_append, List.append_assoc, List.append_assoc,
            List.singleton_append] at hfound

/-- **The first place.**  A machine that follows the search gives out the data in front
of the delimiter and stands behind it, if the data does not have the delimiter in it. -/
theorem Follows.finds (h : Follows (x :: xs) machine searching found) (hx : x ∉ xs)
    {data : List α} (hdata : ¬(x :: xs) <:+: data) (out : List α) :
    Reads machine (searching 0 out) (data ++ x :: xs) (found (out ++ data)) := by
  intro s hs
  have hlater : ¬(x :: xs) <:+: (x :: xs).take 0 ++ data := by
    rwa [List.take_zero, List.nil_append]
  have hfound := h.finds_from hx (Nat.succ_pos _) hs hlater
  rwa [List.take_zero, List.nil_append] at hfound

end DelimiterSearch
