import Mathlib.Data.Finset.Card
import Mathlib.Order.Interval.Finset.Basic
import Mathlib.Data.Int.Interval
import Mathlib.Tactic

/-!
# Id allocation

`SeqNum<T, seq_min, seq_max>` hands out the ids of a range in cyclic order and
skips those still in use.  A range the constructor would reject cannot be
written down here, and a `SeqNum` carries what every operation keeps: the
cursor never leaves `seq_min - 1 .. seq_max` and only ids of the range are in
use.  With it the search loop of `Alloc` always finds a free id.
-/

namespace CommonComponent

def invalidSeqNum : ℤ := 0

/-- The template arguments the constructor accepts. -/
structure SeqRange where
  seqMin : ℤ
  seqMax : ℤ
  one_le_seqMin : 1 ≤ seqMin
  seqMin_lt_seqMax : seqMin < seqMax

namespace SeqRange

variable (r : SeqRange)

def totalCount : ℕ := (r.seqMax - r.seqMin + 1).toNat

def advance (cursor : ℤ) : ℤ :=
  if cursor < r.seqMax then cursor + 1 else r.seqMin

/-- The loop of `Alloc`, for at most the given number of rounds. -/
def search (inuse : Finset ℤ) : ℕ → ℤ → Option ℤ
  | 0, _ => none
  | rounds + 1, cursor =>
      let next := r.advance cursor
      if next ∈ inuse then search inuse rounds next else some next

/-- How many times the cursor advances from `cursor` before it is at `id`. -/
def roundsTo (cursor id : ℤ) : ℤ :=
  if cursor < id then id - cursor
  else (r.seqMax - cursor) + (id - r.seqMin + 1)

variable {r}

theorem advance_range {cursor : ℤ} (hlow : r.seqMin - 1 ≤ cursor) :
    r.seqMin ≤ r.advance cursor ∧ r.advance cursor ≤ r.seqMax := by
  have hr := r.seqMin_lt_seqMax
  unfold advance
  split <;> omega

theorem search_some {inuse : Finset ℤ} {rounds : ℕ} {cursor id : ℤ}
    (hlow : r.seqMin - 1 ≤ cursor)
    (h : r.search inuse rounds cursor = some id) :
    (r.seqMin ≤ id ∧ id ≤ r.seqMax) ∧ id ∉ inuse := by
  induction rounds generalizing cursor with
  | zero => cases h
  | succ rounds ih =>
      have hrange := advance_range hlow
      simp only [search] at h
      by_cases hmem : r.advance cursor ∈ inuse
      · rw [if_pos hmem] at h
        exact ih (by omega) h
      · rw [if_neg hmem, Option.some.injEq] at h
        subst h
        exact ⟨hrange, hmem⟩

/-- A search that ends without an id has met every id it had rounds for. -/
theorem mem_of_search_none {inuse : Finset ℤ} {rounds : ℕ} {cursor : ℤ}
    (hlow : r.seqMin - 1 ≤ cursor) (hhigh : cursor ≤ r.seqMax)
    (h : r.search inuse rounds cursor = none) {id : ℤ}
    (hid : r.seqMin ≤ id ∧ id ≤ r.seqMax)
    (hrounds : r.roundsTo cursor id ≤ rounds) : id ∈ inuse := by
  induction rounds generalizing cursor with
  | zero =>
      unfold roundsTo at hrounds
      split at hrounds <;> omega
  | succ rounds ih =>
      have hrange := advance_range hlow
      simp only [search] at h
      by_cases hmem : r.advance cursor ∈ inuse
      · rw [if_pos hmem] at h
        by_cases hid' : id = r.advance cursor
        · exact hid' ▸ hmem
        · refine ih (by omega) hrange.2 h ?_
          unfold roundsTo at hrounds ⊢
          unfold advance at hid' hrange ⊢
          push_cast at hrounds
          split_ifs at hrounds hid' hrange ⊢ <;> omega
      · rw [if_neg hmem] at h
        cases h

theorem search_isSome {inuse : Finset ℤ} {cursor : ℤ}
    (hlow : r.seqMin - 1 ≤ cursor) (hhigh : cursor ≤ r.seqMax)
    (hinuse : ∀ id ∈ inuse, r.seqMin ≤ id ∧ id ≤ r.seqMax)
    (hfree : inuse.card ≠ r.totalCount) :
    (r.search inuse r.totalCount cursor).isSome := by
  by_contra hnone
  rw [Option.not_isSome_iff_eq_none] at hnone
  have hr := r.seqMin_lt_seqMax
  have hall : inuse = Finset.Icc r.seqMin r.seqMax := by
    ext id
    rw [Finset.mem_Icc]
    refine ⟨hinuse id, fun hid => ?_⟩
    refine mem_of_search_none hlow hhigh hnone hid ?_
    unfold roundsTo totalCount
    split <;> omega
  apply hfree
  rw [hall, Int.card_Icc, totalCount]
  congr 1
  omega

end SeqRange

@[ext] structure SeqNum (r : SeqRange) where
  cursor : ℤ
  inuseSeqs : Finset ℤ
  cursor_ge : r.seqMin - 1 ≤ cursor
  cursor_le : cursor ≤ r.seqMax
  inuse_range : ∀ id ∈ inuseSeqs, r.seqMin ≤ id ∧ id ≤ r.seqMax

namespace SeqNum

variable {r : SeqRange}

def reset (r : SeqRange) : SeqNum r where
  cursor := r.seqMin - 1
  inuseSeqs := ∅
  cursor_ge := le_rfl
  cursor_le := by have := r.seqMin_lt_seqMax; omega
  inuse_range := by simp

/-- The state after `Alloc` found `id`. -/
def take (s : SeqNum r) (id : ℤ) (hid : r.seqMin ≤ id ∧ id ≤ r.seqMax) :
    SeqNum r where
  cursor := id
  inuseSeqs := insert id s.inuseSeqs
  cursor_ge := by omega
  cursor_le := hid.2
  inuse_range := by
    intro id' hid'
    rcases Finset.mem_insert.mp hid' with rfl | hmem
    · exact hid
    · exact s.inuse_range id' hmem

def alloc (s : SeqNum r) : ℤ × SeqNum r :=
  if hfull : s.inuseSeqs.card = r.totalCount then (invalidSeqNum, s)
  else
    have hsome := SeqRange.search_isSome s.cursor_ge s.cursor_le
      s.inuse_range hfull
    let id := (r.search s.inuseSeqs r.totalCount s.cursor).get hsome
    (id, s.take id (SeqRange.search_some s.cursor_ge
      (Option.some_get hsome).symm).1)

def free (s : SeqNum r) (seq : ℤ) : SeqNum r where
  cursor := s.cursor
  inuseSeqs := s.inuseSeqs.erase seq
  cursor_ge := s.cursor_ge
  cursor_le := s.cursor_le
  inuse_range := fun id hid => s.inuse_range id (Finset.mem_of_mem_erase hid)

/-- The state after an id was handed out and freed at once. -/
def skip (s : SeqNum r) : SeqNum r where
  cursor := r.advance s.cursor
  inuseSeqs := s.inuseSeqs
  cursor_ge := by have := SeqRange.advance_range s.cursor_ge; omega
  cursor_le := (SeqRange.advance_range s.cursor_ge).2
  inuse_range := s.inuse_range

theorem take_free {s : SeqNum r}
    (hnext : r.advance s.cursor ∉ s.inuseSeqs) :
    (s.take (r.advance s.cursor) (SeqRange.advance_range s.cursor_ge)).free
      (r.advance s.cursor) = s.skip := by
  apply SeqNum.ext
  · rfl
  · exact Finset.erase_insert hnext

@[simp] theorem skip_iterate_inuseSeqs (s : SeqNum r) (n : ℕ) :
    (skip^[n] s).inuseSeqs = s.inuseSeqs := by
  induction n generalizing s with
  | zero => rfl
  | succ n ih =>
      rw [Function.iterate_succ_apply, ih]
      rfl

theorem skip_iterate_cursor {s : SeqNum r} {n : ℕ}
    (hn : s.cursor + n ≤ r.seqMax) : (skip^[n] s).cursor = s.cursor + n := by
  induction n generalizing s with
  | zero => simp
  | succ n ih =>
      push_cast at hn
      have hnext : s.skip.cursor = s.cursor + 1 := by
        simp only [skip, SeqRange.advance]
        rw [if_pos (by omega)]
      rw [Function.iterate_succ_apply, ih (by omega), hnext]
      push_cast
      omega

@[simp] theorem free_inuseSeqs (s : SeqNum r) (seq : ℤ) :
    (s.free seq).inuseSeqs = s.inuseSeqs.erase seq := rfl

/-- What one call of `Alloc` can do: refuse with nothing changed because every
id is in use, or hand out a free id of the range and move the cursor to it. -/
theorem alloc_cases (s : SeqNum r) :
    (s.alloc = (invalidSeqNum, s) ∧ s.inuseSeqs.card = r.totalCount) ∨
      ∃ id hid, id ∉ s.inuseSeqs ∧ s.alloc = (id, s.take id hid) := by
  unfold alloc
  split
  next hfull => exact Or.inl ⟨rfl, hfull⟩
  next hfree =>
    have hsome := SeqRange.search_isSome s.cursor_ge s.cursor_le
      s.inuse_range hfree
    have hspec := SeqRange.search_some s.cursor_ge (Option.some_get hsome).symm
    exact Or.inr ⟨_, hspec.1, hspec.2, rfl⟩

theorem one_le_of_range {id : ℤ} (hid : r.seqMin ≤ id ∧ id ≤ r.seqMax) :
    1 ≤ id := r.one_le_seqMin.trans hid.1

theorem alloc_of_advance_free {s : SeqNum r}
    (hfree : s.inuseSeqs.card ≠ r.totalCount)
    (hnext : r.advance s.cursor ∉ s.inuseSeqs) :
    s.alloc = (r.advance s.cursor,
      s.take (r.advance s.cursor) (SeqRange.advance_range s.cursor_ge)) := by
  have hpos : ∃ rounds, r.totalCount = rounds + 1 := by
    have := r.seqMin_lt_seqMax
    exact ⟨r.totalCount - 1, by unfold SeqRange.totalCount; omega⟩
  obtain ⟨rounds, hrounds⟩ := hpos
  have hsearch : r.search s.inuseSeqs r.totalCount s.cursor =
      some (r.advance s.cursor) := by
    rw [hrounds]
    simp [SeqRange.search, hnext]
  unfold alloc
  rw [dif_neg hfree]
  simp [hsearch]

end SeqNum

def i32SeqRange : SeqRange where
  seqMin := 1
  seqMax := 0x7fffffff
  one_le_seqMin := le_rfl
  seqMin_lt_seqMax := by decide

end CommonComponent
