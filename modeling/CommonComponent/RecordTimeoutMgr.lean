import Mathlib.Logic.Function.Basic
import Mathlib.Data.List.Nodup
import Mathlib.Tactic

/-!
# Records with a life time

`RecordTimeoutMgr` keeps its records twice: in a hash map by key and in a
multimap by expiry time.  `OnTimer` walks the multimap from its earliest entry,
takes the expired records out of both and only then calls `OnTimeout` for each
of them.  The clock is an argument of every operation that reads it.
-/

namespace CommonComponent

structure ValueCtx (V : Type*) where
  v : V
  upsertTime : ℤ
  timeoutSec : ℤ

/-- An entry of `OnTimer`'s local map `timeout_records`. -/
structure TimeoutRecord (K V : Type*) where
  key : K
  v : V
  timeoutSec : ℤ

/-- `record_hash_map_` and `timeout_multimap_`, the latter in iteration order. -/
structure RecordTimeoutMgr (K V : Type*) where
  recordHashMap : K → Option (ValueCtx V)
  timeoutMultimap : List (ℤ × K)

namespace RecordTimeoutMgr

variable {K V : Type*} [DecidableEq K]

def empty : RecordTimeoutMgr K V where
  recordHashMap := fun _ => none
  timeoutMultimap := []

/-- `std::multimap::insert`: behind every entry of the same or an earlier time. -/
def multimapInsert (time : ℤ) (k : K) : List (ℤ × K) → List (ℤ × K)
  | [] => [(time, k)]
  | entry :: rest =>
      if time < entry.1 then (time, k) :: entry :: rest
      else entry :: multimapInsert time k rest

def recordExist (mgr : RecordTimeoutMgr K V) (k : K) : Bool :=
  (mgr.recordHashMap k).isSome

def upsertRecord (mgr : RecordTimeoutMgr K V)
    (now : ℤ) (k : K) (v : V) (timeoutSec : ℤ) : RecordTimeoutMgr K V :=
  match mgr.recordHashMap k with
  | some r =>
      -- an update refreshes the times only: the stored value stays
      { recordHashMap := Function.update mgr.recordHashMap k
          (some { r with upsertTime := now, timeoutSec := timeoutSec })
        timeoutMultimap := multimapInsert (now + timeoutSec) k
          (mgr.timeoutMultimap.erase (r.upsertTime + r.timeoutSec, k)) }
  | none =>
      { recordHashMap := Function.update mgr.recordHashMap k
          (some { v := v, upsertTime := now, timeoutSec := timeoutSec })
        timeoutMultimap :=
          multimapInsert (now + timeoutSec) k mgr.timeoutMultimap }

def removeRecord (mgr : RecordTimeoutMgr K V) (k : K) :
    RecordTimeoutMgr K V :=
  match mgr.recordHashMap k with
  | some r =>
      { recordHashMap := Function.update mgr.recordHashMap k none
        timeoutMultimap :=
          mgr.timeoutMultimap.erase (r.upsertTime + r.timeoutSec, k) }
  | none => mgr

/-- The first loop of `OnTimer` over the remaining multimap entries.  `none` is
the run that never ends: an entry without a record is met by `continue`, which
does not advance the iterator. -/
def scanExpired (now : ℤ) :
    List (ℤ × K) → (K → Option (ValueCtx V)) →
      Option (List (TimeoutRecord K V) × RecordTimeoutMgr K V)
  | [], records => some ([], ⟨records, []⟩)
  | (time, k) :: rest, records =>
      match records k with
      | none => none
      | some r =>
          if time ≤ now then
            (scanExpired now rest (Function.update records k none)).map
              fun (expired, mgr) => (⟨k, r.v, r.timeoutSec⟩ :: expired, mgr)
          else some ([], ⟨records, (time, k) :: rest⟩)

/-- `OnTimer` up to its callbacks: the expired records, in the order they are
met, and the table without them. -/
def takeExpired (mgr : RecordTimeoutMgr K V) (now : ℤ) :
    Option (List (TimeoutRecord K V) × RecordTimeoutMgr K V) :=
  scanExpired now mgr.timeoutMultimap mgr.recordHashMap

omit [DecidableEq K] in
@[simp] theorem recordExist_empty (k : K) :
    (empty : RecordTimeoutMgr K V).recordExist k = false := rfl

theorem recordExist_upsertRecord (mgr : RecordTimeoutMgr K V)
    (now : ℤ) (k : K) (v : V) (timeoutSec : ℤ) (k' : K) :
    (mgr.upsertRecord now k v timeoutSec).recordExist k' =
      (decide (k' = k) || mgr.recordExist k') := by
  unfold upsertRecord
  cases mgr.recordHashMap k <;>
    by_cases h : k' = k <;> simp [recordExist, Function.update, h]

theorem recordExist_removeRecord (mgr : RecordTimeoutMgr K V) (k k' : K) :
    (mgr.removeRecord k).recordExist k' =
      (!decide (k' = k) && mgr.recordExist k') := by
  unfold removeRecord
  cases hr : mgr.recordHashMap k <;>
    by_cases h : k' = k <;> simp [recordExist, Function.update, h, hr]

/-- A record behind an upsert holds the value passed or the value it held. -/
theorem recordHashMap_upsertRecord {mgr : RecordTimeoutMgr K V} {now : ℤ}
    {k k' : K} {v : V} {timeoutSec : ℤ} {r : ValueCtx V}
    (h : (mgr.upsertRecord now k v timeoutSec).recordHashMap k' = some r) :
    (k' = k ∧ r.v = v) ∨ ∃ r₀, mgr.recordHashMap k' = some r₀ ∧ r₀.v = r.v := by
  unfold upsertRecord at h
  by_cases heq : k' = k
  · subst heq
    cases hr : mgr.recordHashMap k' with
    | none =>
        simp only [hr, Function.update_self, Option.some.injEq] at h
        exact .inl ⟨rfl, by rw [← h]⟩
    | some r₀ =>
        simp only [hr, Function.update_self, Option.some.injEq] at h
        exact .inr ⟨r₀, rfl, by rw [← h]⟩
  · right
    cases hr : mgr.recordHashMap k <;> simp [hr, heq] at h <;> exact ⟨r, h, rfl⟩

theorem recordHashMap_removeRecord {mgr : RecordTimeoutMgr K V} {k k' : K}
    {r : ValueCtx V} (h : (mgr.removeRecord k).recordHashMap k' = some r) :
    k' ≠ k ∧ mgr.recordHashMap k' = some r := by
  unfold removeRecord at h
  by_cases heq : k' = k
  · subst heq
    cases hr : mgr.recordHashMap k' <;> simp [hr] at h
  · refine ⟨heq, ?_⟩
    cases hr : mgr.recordHashMap k <;> simpa [hr, heq] using h

/-- What the scan hands out were records, each once, and none of them is one
afterwards; the other records are as they were. -/
theorem scanExpired_spec {now : ℤ} {entries : List (ℤ × K)}
    {records : K → Option (ValueCtx V)}
    {expired : List (TimeoutRecord K V)} {mgr : RecordTimeoutMgr K V}
    (h : scanExpired now entries records = some (expired, mgr)) :
    (expired.map (·.key)).Nodup ∧
      (∀ k ∈ expired.map (·.key), (records k).isSome) ∧
      ∀ k, mgr.recordHashMap k =
        if k ∈ expired.map (·.key) then none else records k := by
  induction entries generalizing records expired mgr with
  | nil =>
      simp only [scanExpired, Option.some.injEq, Prod.mk.injEq] at h
      obtain ⟨rfl, rfl⟩ := h
      simp
  | cons entry rest ih =>
      obtain ⟨time, k⟩ := entry
      simp only [scanExpired] at h
      cases hr : records k with
      | none => rw [hr] at h; cases h
      | some r =>
          rw [hr] at h
          by_cases hdue : time ≤ now
          · simp only [if_pos hdue, Option.map_eq_some_iff, Prod.mk.injEq,
              Prod.exists] at h
            obtain ⟨later, mgr', hscan, rfl, rfl⟩ := h
            obtain ⟨hnodup, hrecorded, hafter⟩ := ih hscan
            have hfresh : k ∉ later.map (·.key) := by
              intro hmem
              simpa using hrecorded k hmem
            refine ⟨?_, ?_, ?_⟩
            · simpa using ⟨by simpa using hfresh, hnodup⟩
            · intro k' hk'
              simp only [List.map_cons, List.mem_cons] at hk'
              rcases hk' with rfl | hk'
              · simp [hr]
              · have hne : k' ≠ k := fun heq => hfresh (heq ▸ hk')
                simpa [hne] using hrecorded k' hk'
            · intro k'
              rw [hafter k']
              by_cases heq : k' = k
              · subst heq; simp
              · simp [heq]
          · simp only [if_neg hdue, Option.some.injEq, Prod.mk.injEq] at h
            obtain ⟨rfl, rfl⟩ := h
            simp

theorem takeExpired_nodup {mgr mgr' : RecordTimeoutMgr K V} {now : ℤ}
    {expired : List (TimeoutRecord K V)}
    (h : mgr.takeExpired now = some (expired, mgr')) :
    (expired.map (·.key)).Nodup :=
  (scanExpired_spec h).1

theorem takeExpired_recorded {mgr mgr' : RecordTimeoutMgr K V} {now : ℤ}
    {expired : List (TimeoutRecord K V)}
    (h : mgr.takeExpired now = some (expired, mgr')) {k : K}
    (hk : k ∈ expired.map (·.key)) : mgr.recordExist k :=
  (scanExpired_spec h).2.1 k hk

theorem recordExist_takeExpired {mgr mgr' : RecordTimeoutMgr K V} {now : ℤ}
    {expired : List (TimeoutRecord K V)}
    (h : mgr.takeExpired now = some (expired, mgr')) (k : K) :
    mgr'.recordExist k =
      (!decide (k ∈ expired.map (·.key)) && mgr.recordExist k) := by
  simp only [recordExist, (scanExpired_spec h).2.2 k]
  by_cases hk : k ∈ expired.map (·.key) <;> simp [hk]

end RecordTimeoutMgr

end CommonComponent
