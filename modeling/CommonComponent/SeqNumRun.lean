import CommonComponent.LabelledRun
import CommonComponent.SeqNum
import Mathlib.Tactic

/-!
# Runs of an id allocator

`SeqNum` in the arithmetic of its type `T`, for any sequence of `Alloc`, `Free` and
`Reset`.  The values of the cursor since the last `Reset` are those of a counter
modulo the number of ids, so two visits to an id lie a whole round apart; a search
is such a piece of the round, up to the first id that is free.
-/

namespace CommonComponent

open LabelledRun

inductive SeqType
  | int32
  | uint32
deriving DecidableEq

namespace SeqType

def maxValue : SeqType → ℤ
  | .int32 => 0x7fffffff
  | .uint32 => 0xffffffff

/-- An integer as a value of the type. -/
def ofInt : SeqType → ℤ → ℤ
  | .int32, n => (n + 2 ^ 31) % 2 ^ 32 - 2 ^ 31
  | .uint32, n => n % 2 ^ 32

end SeqType

def unsignedLong (n : ℤ) : ℕ := (n % 2 ^ 64).toNat

/-- The template arguments. -/
structure SeqParams extends SeqRange where
  type : SeqType
  seqMax_le : seqMax ≤ type.maxValue

def i32SeqParams : SeqParams where
  toSeqRange := i32SeqRange
  type := .int32
  seqMax_le := by decide

def u32SeqParams : SeqParams where
  seqMin := 1
  seqMax := 0xffffffff
  one_le_seqMin := i32SeqRange.one_le_seqMin
  seqMin_lt_seqMax := by decide
  type := .uint32
  seqMax_le := by decide

/-- The members of a `SeqNum`.  `passed` are the values of the cursor since the last
`Reset`, oldest first, and `lastIssued` is the last id handed out since then; the code
does not keep these two. -/
structure SeqNumState where
  totalCount : ℕ
  cursor : ℤ
  inuseSeqs : Finset ℤ
  passed : List ℤ
  lastIssued : Option ℤ

inductive SeqAction
  | alloc
  | free (seq : ℤ)
  | reset

namespace SeqNumState

variable (p : SeqParams)

def reset : SeqNumState where
  totalCount := unsignedLong (p.type.ofInt (p.type.ofInt (p.seqMax - p.seqMin) + 1))
  cursor := p.type.ofInt (p.seqMin - 1)
  inuseSeqs := ∅
  passed := []
  lastIssued := none

def nextCursor (cursor : ℤ) : ℤ :=
  if unsignedLong cursor < unsignedLong p.seqMax then p.type.ofInt (cursor + 1)
  else p.seqMin

/-- The loop of `Alloc`, for at most the given number of rounds: the id it finds and
the values the cursor takes. -/
def loop (inuseSeqs : Finset ℤ) : ℕ → ℤ → Option (ℤ × List ℤ)
  | 0, _ => none
  | rounds + 1, cursor =>
      let next := nextCursor p cursor
      if next ∈ inuseSeqs then
        (loop inuseSeqs rounds next).map fun found => (found.1, next :: found.2)
      else some (next, [next])

def alloc (s : SeqNumState) (rounds : ℕ) : Option (ℤ × SeqNumState) :=
  if s.inuseSeqs.card = s.totalCount then some (invalidSeqNum, s)
  else
    (loop p s.inuseSeqs rounds s.cursor).map fun found =>
      (found.1,
        { s with
          cursor := found.1
          inuseSeqs := insert found.1 s.inuseSeqs
          passed := s.passed ++ found.2
          lastIssued := some found.1 })

def free (s : SeqNumState) (seq : ℤ) : SeqNumState :=
  { s with inuseSeqs := s.inuseSeqs.erase seq }

def step (s : SeqNumState) : SeqAction → Option SeqNumState
  | .alloc => (s.alloc p s.totalCount).map Prod.snd
  | .free seq => some (s.free seq)
  | .reset => some (reset p)

/-! ## What is asked of a run -/

def InRange (id : ℤ) : Prop := p.seqMin ≤ id ∧ id ≤ p.seqMax

instance (id : ℤ) : Decidable (InRange p id) := inferInstanceAs (Decidable (_ ∧ _))

/-- How many ids there are from the last one issued to this one, going round. -/
def distance (s : SeqNumState) (id : ℤ) : ℤ :=
  p.roundsTo (s.lastIssued.getD (p.seqMin - 1)) id

/-- Between two visits to an id the cursor visits every other one. -/
def VisitsAll (passed : List ℤ) : Prop :=
  ∀ before id between behind, passed = before ++ id :: (between ++ id :: behind) →
    ∀ other, InRange p other → other ≠ id → other ∈ between

structure StateOk (s : SeqNumState) : Prop where
  cursor_ge : p.seqMin - 1 ≤ s.cursor
  cursor_le : s.cursor ≤ p.seqMax
  totalCount : (s.totalCount : ℤ) = p.seqMax - p.seqMin + 1
  terminates : ∃ rounds, (s.alloc p rounds).isSome
  visits : VisitsAll p s.passed

/-- A call of `Alloc` that returns `id`. -/
structure AllocOk (s : SeqNumState) (id : ℤ) (s' : SeqNumState) : Prop where
  refused : id = invalidSeqNum ↔ ∀ other, InRange p other → other ∈ s.inuseSeqs
  unchanged : id = invalidSeqNum → s' = s
  fresh : id ≠ invalidSeqNum → InRange p id ∧ id ∉ s.inuseSeqs
  first : id ≠ invalidSeqNum → ∀ other, InRange p other → other ∉ s.inuseSeqs →
    s.distance p id ≤ s.distance p other
  inuse : id ≠ invalidSeqNum → s'.inuseSeqs = insert id s.inuseSeqs
  passed : id ≠ invalidSeqNum → ∃ between, s'.passed = s.passed ++ (between ++ [id]) ∧
    ∀ other ∈ between, other ∈ s.inuseSeqs
  issued : id ≠ invalidSeqNum → s'.lastIssued = some id

def StepOk (s : SeqNumState) (a : SeqAction) (s' : SeqNumState) : Prop :=
  match a with
  | .alloc => ∃ rounds id, s.alloc p rounds = some (id, s') ∧ AllocOk p s id s'
  | .free seq => s'.inuseSeqs = s.inuseSeqs.erase seq ∧ s'.lastIssued = s.lastIssued
  | .reset => s'.inuseSeqs = ∅ ∧ s'.lastIssued = none

/-! ## The arithmetic -/

variable {p}

theorem one_le_seqMax : 1 ≤ p.seqMax := by
  have hmin := p.one_le_seqMin
  have hlt := p.seqMin_lt_seqMax
  omega

theorem ofInt_of_range {n : ℤ} (hlow : 0 ≤ n) (hhigh : n ≤ p.seqMax) :
    p.type.ofInt n = n := by
  have hmax := p.seqMax_le
  cases htype : p.type with
  | int32 =>
      rw [htype, SeqType.maxValue] at hmax
      simp only [SeqType.ofInt]
      omega
  | uint32 =>
      rw [htype, SeqType.maxValue] at hmax
      simp only [SeqType.ofInt]
      omega

theorem unsignedLong_of_range {n : ℤ} (hlow : 0 ≤ n) (hhigh : n ≤ p.seqMax) :
    (unsignedLong n : ℤ) = n := by
  have hmax : p.seqMax ≤ 0xffffffff := by
    apply p.seqMax_le.trans
    cases p.type with
    | int32 => decide
    | uint32 => decide
  unfold unsignedLong
  omega

theorem nextCursor_eq {cursor : ℤ} (hlow : p.seqMin - 1 ≤ cursor)
    (hhigh : cursor ≤ p.seqMax) : nextCursor p cursor = p.advance cursor := by
  have hmin := p.one_le_seqMin
  have hcursor := unsignedLong_of_range (p := p) (n := cursor) (by omega) hhigh
  have hmax := unsignedLong_of_range (p := p) (n := p.seqMax)
    (by have := one_le_seqMax (p := p); omega) le_rfl
  unfold nextCursor SeqRange.advance
  by_cases hlt : cursor < p.seqMax
  · rw [if_pos (by omega), if_pos hlt]
    exact ofInt_of_range (by omega) (by omega)
  · rw [if_neg (by omega), if_neg hlt]

theorem reset_totalCount :
    ((reset p).totalCount : ℤ) = p.seqMax - p.seqMin + 1 := by
  have hmin := p.one_le_seqMin
  have hlt := p.seqMin_lt_seqMax
  simp only [reset]
  rw [ofInt_of_range (n := p.seqMax - p.seqMin) (by omega) (by omega),
    ofInt_of_range (by omega) (by omega)]
  exact unsignedLong_of_range (p := p) (by omega) (by omega)

example : (reset i32SeqParams).totalCount = 0x7fffffff ∧
    (reset u32SeqParams).totalCount = 0xffffffff := by decide

theorem reset_cursor : (reset p).cursor = p.seqMin - 1 := by
  have hmin := p.one_le_seqMin
  have hlt := p.seqMin_lt_seqMax
  exact ofInt_of_range (by omega) (by omega)

/-! ## The search -/

theorem roundsTo_advance {cursor id : ℤ} (hlow : p.seqMin - 1 ≤ cursor)
    (hhigh : cursor ≤ p.seqMax) (hid : InRange p id) (hne : id ≠ p.advance cursor) :
    p.roundsTo cursor id = p.roundsTo (p.advance cursor) id + 1 := by
  obtain ⟨hidLow, hidHigh⟩ := hid
  unfold SeqRange.roundsTo
  unfold SeqRange.advance at hne ⊢
  split_ifs at hne ⊢ <;> omega

theorem roundsTo_pos {cursor id : ℤ} (hhigh : cursor ≤ p.seqMax) (hid : InRange p id) :
    1 ≤ p.roundsTo cursor id := by
  obtain ⟨hidLow, hidHigh⟩ := hid
  unfold SeqRange.roundsTo
  split_ifs <;> omega

theorem roundsTo_next {cursor : ℤ} (hlow : p.seqMin - 1 ≤ cursor)
    (hhigh : cursor ≤ p.seqMax) : p.roundsTo cursor (p.advance cursor) = 1 := by
  unfold SeqRange.roundsTo SeqRange.advance
  split_ifs <;> omega

theorem search_first {inuseSeqs : Finset ℤ} {rounds : ℕ} {cursor id : ℤ}
    (hlow : p.seqMin - 1 ≤ cursor) (hhigh : cursor ≤ p.seqMax)
    (h : p.search inuseSeqs rounds cursor = some id) {other : ℤ}
    (hother : InRange p other) (hfree : other ∉ inuseSeqs) :
    p.roundsTo cursor id ≤ p.roundsTo cursor other := by
  induction rounds generalizing cursor with
  | zero => cases h
  | succ rounds ih =>
      have hrange := SeqRange.advance_range hlow
      simp only [SeqRange.search] at h
      by_cases hmem : p.advance cursor ∈ inuseSeqs
      · rw [if_pos hmem] at h
        have hid := SeqRange.search_some (by omega) h
        have hle := ih (by omega) hrange.2 h
        have hidNe : id ≠ p.advance cursor := by
          rintro rfl
          exact hid.2 hmem
        have hotherNe : other ≠ p.advance cursor := by
          rintro rfl
          exact hfree hmem
        rw [roundsTo_advance hlow hhigh hid.1 hidNe,
          roundsTo_advance hlow hhigh hother hotherNe]
        omega
      · rw [if_neg hmem, Option.some.injEq] at h
        rw [← h, roundsTo_next hlow hhigh]
        exact roundsTo_pos hhigh hother

/-- The id at the given place of the round. -/
def idAt (p : SeqParams) (n : ℕ) : ℤ := p.seqMin + ((n % p.totalCount : ℕ) : ℤ)

/-- The cursor after it has advanced `n` times. -/
def cursorAt (p : SeqParams) : ℕ → ℤ
  | 0 => p.seqMin - 1
  | n + 1 => idAt p n

theorem totalCount_eq : (p.totalCount : ℤ) = p.seqMax - p.seqMin + 1 := by
  have hlt := p.seqMin_lt_seqMax
  unfold SeqRange.totalCount
  omega

theorem idAt_range (n : ℕ) : InRange p (idAt p n) := by
  have htotal := totalCount_eq (p := p)
  have hlt := p.seqMin_lt_seqMax
  have hmod : n % p.totalCount < p.totalCount := Nat.mod_lt n (by omega)
  unfold InRange idAt
  omega

theorem cursorAt_range (n : ℕ) :
    p.seqMin - 1 ≤ cursorAt p n ∧ cursorAt p n ≤ p.seqMax := by
  cases n with
  | zero =>
      have hlt := p.seqMin_lt_seqMax
      exact ⟨le_rfl, by simp only [cursorAt]; omega⟩
  | succ n =>
      obtain ⟨hlow, hhigh⟩ := idAt_range (p := p) n
      exact ⟨by simp only [cursorAt]; omega, hhigh⟩

theorem idAt_succ (n : ℕ) : idAt p (n + 1) = p.advance (idAt p n) := by
  have htotal := totalCount_eq (p := p)
  have hlt := p.seqMin_lt_seqMax
  have hmod : n % p.totalCount < p.totalCount := Nat.mod_lt n (by omega)
  unfold idAt SeqRange.advance
  rw [← Nat.mod_add_mod]
  by_cases hlast : n % p.totalCount + 1 < p.totalCount
  · rw [Nat.mod_eq_of_lt hlast, if_pos (by omega)]
    push_cast
    omega
  · have hround : n % p.totalCount + 1 = p.totalCount := by omega
    rw [hround, Nat.mod_self, if_neg (by omega)]
    simp

theorem advance_cursorAt (n : ℕ) : p.advance (cursorAt p n) = idAt p n := by
  cases n with
  | zero =>
      have hlt := p.seqMin_lt_seqMax
      simp [SeqRange.advance, cursorAt, idAt]
  | succ n => exact (idAt_succ n).symm

def visited (p : SeqParams) (n : ℕ) : List ℤ := (List.range n).map (idAt p)

/-- The loop goes on in the round where the cursor is, and ends at the first id that
is free. -/
theorem loop_cursorAt {inuseSeqs : Finset ℤ} {rounds n : ℕ} {found : ℤ × List ℤ}
    (h : loop p inuseSeqs rounds (cursorAt p n) = some found) :
    ∃ k, found.1 = idAt p (n + k) ∧
      found.2 = (List.range k).map (fun i => idAt p (n + i)) ++ [idAt p (n + k)] ∧
      found.1 ∉ inuseSeqs ∧ ∀ i < k, idAt p (n + i) ∈ inuseSeqs := by
  induction rounds generalizing n found with
  | zero => cases h
  | succ rounds ih =>
      obtain ⟨hlow, hhigh⟩ := cursorAt_range (p := p) n
      simp only [loop, nextCursor_eq hlow hhigh, advance_cursorAt] at h
      by_cases hmem : idAt p n ∈ inuseSeqs
      · rw [if_pos hmem, Option.map_eq_some_iff] at h
        obtain ⟨later, hlater, rfl⟩ := h
        obtain ⟨k, hid, hpassed, hfree, hinuse⟩ := ih (n := n + 1) hlater
        have hshift : ∀ i, n + 1 + i = n + (i + 1) := by
          intro i
          omega
        refine ⟨k + 1, ?_, ?_, hfree, ?_⟩
        · rw [← hshift]
          exact hid
        · simp only [hpassed, hshift, List.range_succ_eq_map, List.map_cons, List.map_map,
            Nat.add_zero, List.cons_append]
          rfl
        · intro i hi
          cases i with
          | zero => exact hmem
          | succ i =>
              rw [← hshift]
              exact hinuse i (by omega)
      · rw [if_neg hmem, Option.some.injEq] at h
        subst h
        exact ⟨0, rfl, rfl, hmem, fun i hi => absurd hi (Nat.not_lt_zero i)⟩

theorem loop_search {inuseSeqs : Finset ℤ} {rounds n : ℕ} :
    (loop p inuseSeqs rounds (cursorAt p n)).map Prod.fst =
      p.search inuseSeqs rounds (cursorAt p n) := by
  induction rounds generalizing n with
  | zero => rfl
  | succ rounds ih =>
      obtain ⟨hlow, hhigh⟩ := cursorAt_range (p := p) n
      simp only [loop, SeqRange.search, nextCursor_eq hlow hhigh, advance_cursorAt]
      by_cases hmem : idAt p n ∈ inuseSeqs
      · rw [if_pos hmem, if_pos hmem, Option.map_map]
        exact ih (n := n + 1)
      · rw [if_neg hmem, if_neg hmem]
        rfl

theorem getElem?_visited {n i : ℕ} {id : ℤ} (h : (visited p n)[i]? = some id) :
    idAt p i = id := by
  obtain ⟨j, hj, rfl⟩ := Option.map_eq_some_iff.mp ((List.getElem?_map ..).symm.trans h)
  rw [(List.getElem?_eq_some_iff.mp hj).2.symm, List.getElem_range]

/-- Every id is among the ids at as many places of the round as there are ids. -/
theorem exists_idAt {id : ℤ} (hid : InRange p id) (start : ℕ) :
    ∃ d < p.totalCount, idAt p (start + d) = id := by
  obtain ⟨hlow, hhigh⟩ := hid
  have htotal := totalCount_eq (p := p)
  have hpos : 0 < p.totalCount := by omega
  obtain ⟨r, hr⟩ : ∃ r : ℕ, id = p.seqMin + r := ⟨(id - p.seqMin).toNat, by omega⟩
  have hmul : start ≤ p.totalCount * start := Nat.le_mul_of_pos_left start hpos
  refine ⟨(r + (p.totalCount * start - start)) % p.totalCount, Nat.mod_lt _ hpos, ?_⟩
  have hsum : start + (r + (p.totalCount * start - start)) = r + p.totalCount * start := by
    omega
  rw [idAt, Nat.add_mod_mod, hsum, Nat.add_mul_mod_self_left,
    Nat.mod_eq_of_lt (by omega), hr]

/-- Two visits to an id are a round apart or more. -/
theorem visitsAll_visited (n : ℕ) : VisitsAll p (visited p n) := by
  intro before id between behind hsplit other hother hne
  have hfirst : idAt p before.length = id :=
    getElem?_visited (n := n) (by simp [hsplit])
  have hsecond : idAt p (before.length + 1 + between.length) = id := by
    apply getElem?_visited (n := n)
    rw [hsplit, List.getElem?_append_right (by omega)]
    have hindex : before.length + 1 + between.length - before.length =
        between.length + 1 := by omega
    simp [hindex]
  have hround : p.totalCount ≤ 1 + between.length := by
    have hmod : before.length % p.totalCount =
        (before.length + 1 + between.length) % p.totalCount := by
      have hsame := hfirst.trans hsecond.symm
      unfold idAt at hsame
      omega
    have hdvd := (Nat.modEq_iff_dvd' (by omega)).mp hmod
    exact (Nat.le_of_dvd (by omega) hdvd).trans (by omega)
  obtain ⟨d, hd, hplace⟩ := exists_idAt hother (before.length + 1)
  have hlast : d ≠ between.length := by
    rintro rfl
    exact hne (hplace.symm.trans hsecond)
  have hlt : d < between.length := by omega
  have hlen : before.length + 1 + d < (visited p n).length := by
    rw [hsplit]
    simp
    omega
  have hget := getElem?_visited (p := p) (List.getElem?_eq_getElem hlen)
  have hbetween : (visited p n)[before.length + 1 + d]? = between[d]? := by
    rw [hsplit, List.getElem?_append_right (by omega)]
    have hindex : before.length + 1 + d - before.length = d + 1 := by omega
    rw [hindex, List.getElem?_cons_succ, List.getElem?_append_left hlt]
  rw [List.getElem?_eq_getElem hlen, ← hget, hplace] at hbetween
  exact List.mem_of_getElem? hbetween.symm

/-! ## Runs -/

structure Inv (p : SeqParams) (s : SeqNumState) : Prop where
  totalCount : s.totalCount = p.totalCount
  inuse : ∀ id ∈ s.inuseSeqs, InRange p id
  passed : s.passed = visited p s.passed.length
  cursor : s.cursor = cursorAt p s.passed.length
  issued : s.lastIssued.getD (p.seqMin - 1) = s.cursor

theorem Inv.reset : Inv p (reset p) where
  totalCount := by
    have htotal := totalCount_eq (p := p)
    have hreset := reset_totalCount (p := p)
    omega
  inuse := fun _ h => nomatch h
  passed := rfl
  cursor := reset_cursor
  issued := reset_cursor.symm

theorem Inv.free {s : SeqNumState} (h : Inv p s) (seq : ℤ) : Inv p (s.free seq) :=
  { h with inuse := fun id hid => h.inuse id (Finset.mem_of_mem_erase hid) }

theorem Inv.search_isSome {s : SeqNumState} (h : Inv p s)
    (hfree : s.inuseSeqs.card ≠ s.totalCount) :
    (loop p s.inuseSeqs s.totalCount s.cursor).isSome := by
  obtain ⟨hlow, hhigh⟩ := cursorAt_range (p := p) s.passed.length
  have hsearch := SeqRange.search_isSome hlow hhigh h.inuse (h.totalCount ▸ hfree)
  rw [← loop_search, Option.isSome_map] at hsearch
  rw [h.cursor, h.totalCount]
  exact hsearch

/-- The two sizes that `Alloc` compares are equal when every id is in use. -/
theorem Inv.full_iff {s : SeqNumState} (h : Inv p s) :
    s.inuseSeqs.card = s.totalCount ↔ ∀ other, InRange p other → other ∈ s.inuseSeqs := by
  have hsub : s.inuseSeqs ⊆ Finset.Icc p.seqMin p.seqMax :=
    fun id hid => Finset.mem_Icc.mpr (h.inuse id hid)
  have hcard : (Finset.Icc p.seqMin p.seqMax).card = s.totalCount := by
    rw [h.totalCount, Int.card_Icc, SeqRange.totalCount]
    congr 1
    omega
  constructor
  · intro hfull other hother
    rw [Finset.eq_of_subset_of_card_le hsub (by omega)]
    exact Finset.mem_Icc.mpr hother
  · intro hall
    rw [← hcard]
    congr 1
    exact hsub.antisymm fun id hid => hall id (Finset.mem_Icc.mp hid)

theorem visited_add (n k : ℕ) : visited p (n + (k + 1)) =
    visited p n ++ ((List.range k).map (fun i => idAt p (n + i)) ++ [idAt p (n + k)]) := by
  simp [visited, List.range_add, List.range_succ, Function.comp_def]

theorem Inv.alloc {s s' : SeqNumState} (h : Inv p s) {rounds : ℕ} {id : ℤ}
    (halloc : s.alloc p rounds = some (id, s')) : Inv p s' ∧ AllocOk p s id s' := by
  unfold SeqNumState.alloc at halloc
  by_cases hfull : s.inuseSeqs.card = s.totalCount
  · rw [if_pos hfull, Option.some.injEq, Prod.mk.injEq] at halloc
    obtain ⟨rfl, rfl⟩ := halloc
    refine ⟨h, ⟨fun _ => h.full_iff.mp hfull, fun _ => rfl⟩, fun _ => rfl, ?_, ?_, ?_, ?_,
      ?_⟩
    all_goals exact fun hne => absurd rfl hne
  · rw [if_neg hfull, Option.map_eq_some_iff] at halloc
    obtain ⟨found, hloop, hfound⟩ := halloc
    rw [Prod.mk.injEq] at hfound
    obtain ⟨rfl, rfl⟩ := hfound
    rw [h.cursor] at hloop
    obtain ⟨hlow, hhigh⟩ := cursorAt_range (p := p) s.passed.length
    have hsearch : p.search s.inuseSeqs rounds (cursorAt p s.passed.length) =
        some found.1 := by
      rw [← loop_search, hloop]
      rfl
    obtain ⟨k, hid, hpassed, hfree, hinuse⟩ := loop_cursorAt hloop
    have hrange : InRange p found.1 := hid ▸ idAt_range _
    have hvalid : found.1 ≠ invalidSeqNum := by
      have hpos := SeqNum.one_le_of_range hrange
      unfold invalidSeqNum
      omega
    have hlength : (s.passed ++ found.2).length = s.passed.length + (k + 1) := by
      simp [hpassed]
    constructor
    · constructor
      · exact h.totalCount
      · intro id hmem
        rcases Finset.mem_insert.mp hmem with rfl | hold
        · exact hrange
        · exact h.inuse id hold
      · simp only [hlength]
        rw [visited_add, hpassed, ← h.passed]
      · simp only [hlength]
        exact hid
      · rfl
    · refine ⟨⟨fun hinvalid => absurd hinvalid hvalid, fun hall => ?_⟩,
        fun hinvalid => absurd hinvalid hvalid, fun _ => ⟨hrange, hfree⟩, ?_, fun _ => rfl,
        ?_, fun _ => rfl⟩
      · exact absurd (hall _ hrange) hfree
      · intro _ other hother hotherFree
        unfold distance
        rw [h.issued, h.cursor]
        exact search_first hlow hhigh hsearch hother hotherFree
      · intro _
        refine ⟨_, by rw [hpassed, ← hid], fun other hother => ?_⟩
        obtain ⟨i, hi, rfl⟩ := List.mem_map.mp hother
        exact hinuse i (List.mem_range.mp hi)

theorem Inv.stateOk {s : SeqNumState} (h : Inv p s) : StateOk p s where
  cursor_ge := by
    rw [h.cursor]
    exact (cursorAt_range _).1
  cursor_le := by
    rw [h.cursor]
    exact (cursorAt_range _).2
  totalCount := by
    rw [h.totalCount]
    exact totalCount_eq
  terminates := by
    refine ⟨s.totalCount, ?_⟩
    unfold SeqNumState.alloc
    by_cases hfull : s.inuseSeqs.card = s.totalCount
    · simp [hfull]
    · simpa [hfull] using h.search_isSome hfull
  visits := by
    rw [h.passed]
    exact visitsAll_visited _

/-- **The id allocator.**  In every run `Alloc` hands out the first free id behind the
last one, or none where none is free, and between two issues of an id the cursor visits
every other one. -/
theorem run_allocOk (p : SeqParams) (actions : List SeqAction) :
    Along (step p) (StateOk p) (StepOk p) (reset p) actions :=
  along_of_inv (fun _ h => Inv.stateOk h)
    (fun s a s' h hstep => by
      cases a with
      | alloc =>
          obtain ⟨result, halloc, rfl⟩ := Option.map_eq_some_iff.mp hstep
          obtain ⟨hinv, hok⟩ := h.alloc halloc
          exact ⟨hinv, s.totalCount, result.1, halloc, hok⟩
      | free seq =>
          obtain rfl := Option.some.inj hstep
          exact ⟨h.free seq, rfl, rfl⟩
      | reset =>
          obtain rfl := Option.some.inj hstep
          exact ⟨Inv.reset, rfl, rfl⟩)
    actions Inv.reset

/-! ## An id that comes again at once -/

/-- An id that is freed is issued again only behind every other id that was free. -/
def ComesLast (p : SeqParams) (before behind : List SeqAction) (id : ℤ) : Prop :=
  ∀ s t t', run (step p) (reset p) before = some s → id ∈ s.inuseSeqs →
    run (step p) (s.free id) behind = some t → .reset ∉ behind →
    t.alloc p t.totalCount = some (id, t') →
    ∀ other, InRange p other → other ≠ id → other ∉ s.inuseSeqs →
      other ∈ t'.passed.drop s.passed.length

def threeIds : SeqParams where
  seqMin := 1
  seqMax := 3
  one_le_seqMin := i32SeqRange.one_le_seqMin
  seqMin_lt_seqMax := by decide
  type := .int32
  seqMax_le := by decide

/-- With all three ids in use and 2 free already, 1 is freed and comes next. -/
theorem not_comesLast_threeIds :
    ¬ComesLast threeIds [.alloc, .alloc, .alloc, .free 2] [] 1 := by
  intro h
  have htwo := h _ _ _ rfl (by decide) rfl List.not_mem_nil rfl 2 (by decide)
    (by decide) (by decide)
  revert htwo
  decide

end SeqNumState

end CommonComponent
