import CommonComponent.LabelledRun
import CommonComponent.RecordTimeoutMgr
import Mathlib.Data.List.Sort
import Mathlib.Tactic

/-!
# Runs of a record table

The hash map and the multimap of a `RecordTimeoutMgr` are kept in step by hand.
`IndexOk` says what that means: the multimap holds one entry for each record, at
the time the record expires, and nothing else.  Every operation keeps it, and
under it the scan of `OnTimer` ends and takes out exactly the records that are
due.

`OnTimeout` is code of the user of the table, which may call the table again.
A run therefore has the notifications of a batch as actions of their own, with
any operations between them; `onTimer` is the call as the source writes it.
-/

namespace CommonComponent

/-- A call that changes the table, with the clock it reads. -/
inductive RecordOp (K V : Type*) where
  | upsert (now : ℤ) (k : K) (v : V) (timeoutSec : ℤ)
  | remove (k : K)

/-- The iteration order of the hash map `timeout_records`. -/
structure BatchOrder (K V : Type*) where
  arrange : List (TimeoutRecord K V) → List (TimeoutRecord K V)
  perm : ∀ expired, (arrange expired).Perm expired

/-- The order the scan met the records in. -/
def BatchOrder.scan (K V : Type*) : BatchOrder K V where
  arrange := id
  perm := List.Perm.refl

namespace RecordTimeoutMgr

open LabelledRun

variable {K V : Type*} [DecidableEq K]

def getRecord (mgr : RecordTimeoutMgr K V) (k : K) : Option (V × ℤ) :=
  (mgr.recordHashMap k).map fun r => (r.v, r.timeoutSec)

def applyOp (mgr : RecordTimeoutMgr K V) : RecordOp K V → RecordTimeoutMgr K V
  | .upsert now k v timeoutSec => mgr.upsertRecord now k v timeoutSec
  | .remove k => mgr.removeRecord k

def applyOps (mgr : RecordTimeoutMgr K V) (ops : List (RecordOp K V)) :
    RecordTimeoutMgr K V :=
  ops.foldl applyOp mgr

/-- The second loop of `OnTimer`: the calls of `OnTimeout` and the table behind
them, where `react` is what each call does to the table. -/
def notifyTimeouts (react : TimeoutRecord K V → List (RecordOp K V)) :
    List (TimeoutRecord K V) → RecordTimeoutMgr K V →
      List (TimeoutRecord K V) × RecordTimeoutMgr K V
  | [], mgr => ([], mgr)
  | r :: rest, mgr =>
      let (told, mgr') := notifyTimeouts react rest (mgr.applyOps (react r))
      (r :: told, mgr')

def onTimer (mgr : RecordTimeoutMgr K V) (now : ℤ) (order : BatchOrder K V)
    (react : TimeoutRecord K V → List (RecordOp K V)) :
    Option (List (TimeoutRecord K V) × RecordTimeoutMgr K V) :=
  (mgr.takeExpired now).map fun (expired, rest) =>
    notifyTimeouts react (order.arrange expired) rest

/-- The multimap is in order and has one entry for each record, at the time the
record expires, and no other entry. -/
structure IndexOk (mgr : RecordTimeoutMgr K V) : Prop where
  sorted : mgr.timeoutMultimap.Pairwise fun a b => a.1 ≤ b.1
  entries : ∀ k, mgr.timeoutMultimap.filter (fun entry => entry.2 = k) =
    (mgr.recordHashMap k).toList.map fun r => (r.upsertTime + r.timeoutSec, k)

section Multimap

omit [DecidableEq K] in
theorem mem_multimapInsert {time : ℤ} {k : K} {entries : List (ℤ × K)}
    {entry : ℤ × K} :
    entry ∈ multimapInsert time k entries ↔
      entry = (time, k) ∨ entry ∈ entries := by
  induction entries with
  | nil => simp [multimapInsert]
  | cons first rest ih =>
      by_cases hlt : time < first.1
      · simp [multimapInsert, hlt]
      · simp [multimapInsert, hlt, ih, or_left_comm]

omit [DecidableEq K] in
theorem multimapInsert_sorted {time : ℤ} {k : K} {entries : List (ℤ × K)}
    (h : entries.Pairwise fun a b => a.1 ≤ b.1) :
    (multimapInsert time k entries).Pairwise fun a b => a.1 ≤ b.1 := by
  induction entries with
  | nil => simp [multimapInsert]
  | cons first rest ih =>
      obtain ⟨hfirst, hrest⟩ := List.pairwise_cons.mp h
      by_cases hlt : time < first.1
      · rw [multimapInsert, if_pos hlt]
        refine List.pairwise_cons.mpr ⟨?_, h⟩
        intro entry hentry
        rcases List.mem_cons.mp hentry with rfl | hentry
        · exact hlt.le
        · exact hlt.le.trans (hfirst entry hentry)
      · rw [multimapInsert, if_neg hlt]
        refine List.pairwise_cons.mpr ⟨?_, ih hrest⟩
        intro entry hentry
        rcases mem_multimapInsert.mp hentry with rfl | hentry
        · exact not_lt.mp hlt
        · exact hfirst entry hentry

theorem filter_multimapInsert_of_ne {time : ℤ} {k k' : K} (hne : k ≠ k')
    (entries : List (ℤ × K)) :
    (multimapInsert time k entries).filter (fun entry => entry.2 = k') =
      entries.filter fun entry => entry.2 = k' := by
  induction entries with
  | nil => simp [multimapInsert, hne]
  | cons first rest ih =>
      by_cases hlt : time < first.1
      · simp [multimapInsert, hlt, hne]
      · simp only [multimapInsert, if_neg hlt, List.filter_cons, ih]

theorem filter_multimapInsert_self {time : ℤ} {k : K} {entries : List (ℤ × K)}
    (h : entries.filter (fun entry => entry.2 = k) = []) :
    (multimapInsert time k entries).filter (fun entry => entry.2 = k) =
      [(time, k)] := by
  induction entries with
  | nil => simp [multimapInsert]
  | cons first rest ih =>
      have hfirst : first.2 ≠ k := by
        intro heq
        simp [heq] at h
      have hrest : rest.filter (fun entry => entry.2 = k) = [] := by
        simpa [hfirst] using h
      by_cases hlt : time < first.1
      · simp [multimapInsert, hlt, hfirst, hrest]
      · simp [multimapInsert, hlt, hfirst, ih hrest]

end Multimap

namespace IndexOk

variable {mgr : RecordTimeoutMgr K V}

theorem empty : (RecordTimeoutMgr.empty : RecordTimeoutMgr K V).IndexOk where
  sorted := List.Pairwise.nil
  entries := fun _ => rfl

theorem filter_erase (h : mgr.IndexOk) {k : K} {r : ValueCtx V}
    (hr : mgr.recordHashMap k = some r) (k' : K) :
    (mgr.timeoutMultimap.erase (r.upsertTime + r.timeoutSec, k)).filter
        (fun entry => entry.2 = k') =
      ((Function.update mgr.recordHashMap k none) k').toList.map
        fun r => (r.upsertTime + r.timeoutSec, k') := by
  rw [← List.erase_filter, h.entries k']
  by_cases heq : k' = k
  · subst heq
    simp [hr]
  · rw [Function.update_of_ne heq]
    apply List.erase_of_not_mem
    simp [heq]

theorem insert {records : K → Option (ValueCtx V)} {entries : List (ℤ × K)}
    {k : K} (hsorted : entries.Pairwise fun a b => a.1 ≤ b.1)
    (hentries : ∀ k', entries.filter (fun entry => entry.2 = k') =
      ((Function.update records k none) k').toList.map
        fun r => (r.upsertTime + r.timeoutSec, k'))
    (r : ValueCtx V) :
    IndexOk ⟨Function.update records k (some r),
      multimapInsert (r.upsertTime + r.timeoutSec) k entries⟩ where
  sorted := multimapInsert_sorted hsorted
  entries := by
    intro k'
    by_cases heq : k' = k
    · subst heq
      have hnone : entries.filter (fun entry => entry.2 = k') = [] := by
        simpa using hentries k'
      simpa using filter_multimapInsert_self hnone
    · rw [filter_multimapInsert_of_ne (Ne.symm heq), hentries k']
      simp [heq]

theorem upsertRecord (h : mgr.IndexOk) (now : ℤ) (k : K) (v : V)
    (timeoutSec : ℤ) : (mgr.upsertRecord now k v timeoutSec).IndexOk := by
  unfold RecordTimeoutMgr.upsertRecord
  cases hr : mgr.recordHashMap k with
  | some r =>
      have hsorted := h.sorted.sublist
        (List.erase_sublist (a := (r.upsertTime + r.timeoutSec, k)))
      exact insert hsorted (h.filter_erase hr)
        { r with upsertTime := now, timeoutSec := timeoutSec }
  | none =>
      have hentries : ∀ k', mgr.timeoutMultimap.filter
          (fun entry => entry.2 = k') =
            ((Function.update mgr.recordHashMap k none) k').toList.map
              fun r => (r.upsertTime + r.timeoutSec, k') := by
        intro k'
        rw [h.entries k', ← hr, Function.update_eq_self]
      exact insert h.sorted hentries ⟨v, now, timeoutSec⟩

theorem removeRecord (h : mgr.IndexOk) (k : K) :
    (mgr.removeRecord k).IndexOk := by
  unfold RecordTimeoutMgr.removeRecord
  cases hr : mgr.recordHashMap k with
  | some r =>
      exact
        { sorted := h.sorted.sublist List.erase_sublist
          entries := h.filter_erase hr }
  | none => exact h

theorem applyOp (h : mgr.IndexOk) (op : RecordOp K V) :
    (mgr.applyOp op).IndexOk := by
  cases op with
  | upsert now k v timeoutSec => exact h.upsertRecord now k v timeoutSec
  | remove k => exact h.removeRecord k

theorem of_cons {records : K → Option (ValueCtx V)} {time : ℤ} {k : K}
    {rest : List (ℤ × K)} (h : IndexOk ⟨records, (time, k) :: rest⟩) :
    ∃ r, records k = some r ∧ r.upsertTime + r.timeoutSec = time ∧
      IndexOk ⟨Function.update records k none, rest⟩ := by
  have hk := h.entries k
  cases hr : records k with
  | none => simp [hr] at hk
  | some r =>
      simp only [hr, List.filter_cons, decide_true, if_true, Option.toList_some,
        List.map_cons, List.map_nil, List.cons.injEq, Prod.mk.injEq, and_true]
        at hk
      obtain ⟨htime, hrest⟩ := hk
      refine ⟨r, rfl, htime.symm, (List.pairwise_cons.mp h.sorted).2, ?_⟩
      intro k'
      by_cases heq : k' = k
      · subst heq
        simpa using hrest
      · have hk' := h.entries k'
        simpa [heq, Ne.symm heq] using hk'

theorem first_le {records : K → Option (ValueCtx V)} {time : ℤ} {k k' : K}
    {rest : List (ℤ × K)} (h : IndexOk ⟨records, (time, k) :: rest⟩)
    {r : ValueCtx V} (hr : records k' = some r) :
    time ≤ r.upsertTime + r.timeoutSec := by
  have hentries := h.entries k'
  simp only [hr, Option.toList_some, List.map_cons, List.map_nil] at hentries
  have hmem : (r.upsertTime + r.timeoutSec, k') ∈ (time, k) :: rest := by
    apply List.mem_of_mem_filter (p := fun entry => entry.2 = k')
    rw [hentries]
    exact List.mem_singleton_self _
  rcases List.mem_cons.mp hmem with heq | hmem
  · exact (congrArg Prod.fst heq).ge
  · exact (List.pairwise_cons.mp h.sorted).1 _ hmem

theorem applyOps (h : mgr.IndexOk) (ops : List (RecordOp K V)) :
    (mgr.applyOps ops).IndexOk := by
  induction ops generalizing mgr with
  | nil => exact h
  | cons op ops ih => exact ih (h.applyOp op)

end IndexOk

/-- What the expiry of a table at `now` takes out of it. -/
structure TakesExpired (mgr : RecordTimeoutMgr K V) (now : ℤ)
    (expired : List (TimeoutRecord K V)) (rest : RecordTimeoutMgr K V) :
    Prop where
  mem_expired : ∀ t, t ∈ expired ↔
    ∃ r, mgr.recordHashMap t.key = some r ∧
      r.upsertTime + r.timeoutSec ≤ now ∧ t.v = r.v ∧
        t.timeoutSec = r.timeoutSec
  nodup : (expired.map (·.key)).Nodup
  records : ∀ k, rest.recordHashMap k =
    (mgr.recordHashMap k).filter fun r => now < r.upsertTime + r.timeoutSec
  index : rest.IndexOk

/-- The scan over an index in order ends, and stops at the first record that is
not due: none behind it is. -/
theorem scanExpired_exact (now : ℤ) {entries : List (ℤ × K)}
    {records : K → Option (ValueCtx V)} (h : IndexOk ⟨records, entries⟩) :
    ∃ expired rest, scanExpired now entries records = some (expired, rest) ∧
      TakesExpired ⟨records, entries⟩ now expired rest := by
  induction entries generalizing records with
  | nil =>
      have hnone : ∀ k, records k = none := by
        intro k
        simpa using h.entries k
      refine ⟨[], ⟨records, []⟩, rfl, ?_, List.nodup_nil, ?_, h⟩
      · simp [hnone]
      · simp [hnone]
  | cons entry rest ih =>
      obtain ⟨time, k⟩ := entry
      obtain ⟨r, hr, htime, hindex⟩ := h.of_cons
      by_cases hdue : time ≤ now
      · obtain ⟨expired, mgr, hscan, htakes⟩ := ih hindex
        refine ⟨⟨k, r.v, r.timeoutSec⟩ :: expired, mgr, ?_, ?_, ?_, ?_,
          htakes.index⟩
        · simp [scanExpired, hr, hdue, hscan]
        · intro t
          rw [List.mem_cons, htakes.mem_expired t]
          by_cases heq : t.key = k
          · constructor
            · rintro (rfl | ⟨r', hr', -⟩)
              · exact ⟨r, hr, htime ▸ hdue, rfl, rfl⟩
              · simp [heq] at hr'
            · rintro ⟨r', hr', -, hv, htimeout⟩
              obtain rfl : r = r' := by simpa [heq, hr] using hr'
              left
              cases t
              simp_all
          · have hne : t ≠ ⟨k, r.v, r.timeoutSec⟩ := fun h => heq (by rw [h])
            simp [heq, hne]
        · rw [List.map_cons, List.nodup_cons]
          refine ⟨?_, htakes.nodup⟩
          intro hmem
          obtain ⟨t, ht, htk⟩ := List.mem_map.mp hmem
          obtain ⟨r', hr', -⟩ := (htakes.mem_expired t).mp ht
          simp [htk] at hr'
        · intro k'
          rw [htakes.records k']
          by_cases heq : k' = k
          · subst heq
            have hnot : ¬ now < r.upsertTime + r.timeoutSec := by omega
            simp [hr, Option.filter, hnot]
          · simp [heq]
      · have hlater : ∀ k' r', records k' = some r' →
            now < r'.upsertTime + r'.timeoutSec := by
          intro k' r' hr'
          have hfirst := h.first_le hr'
          omega
        refine ⟨[], ⟨records, (time, k) :: rest⟩, ?_, ?_, List.nodup_nil, ?_, h⟩
        · simp [scanExpired, hr, hdue]
        · intro t
          refine iff_of_false List.not_mem_nil ?_
          rintro ⟨r', hr', hdue', -⟩
          have hlt := hlater _ _ hr'
          omega
        · intro k'
          change records k' = (records k').filter _
          cases hr' : records k' with
          | none => rfl
          | some r' => simp [Option.filter, hlater k' r' hr']

theorem IndexOk.takeExpired {mgr : RecordTimeoutMgr K V} (h : mgr.IndexOk)
    (now : ℤ) :
    ∃ expired rest, mgr.takeExpired now = some (expired, rest) ∧
      TakesExpired mgr now expired rest :=
  scanExpired_exact now h

/-- An update keeps the value the record was inserted with. -/
theorem getRecord_upsertRecord_of_some {mgr : RecordTimeoutMgr K V} {k : K}
    {r : ValueCtx V} (hr : mgr.recordHashMap k = some r) (now : ℤ) (v : V)
    (timeoutSec : ℤ) :
    (mgr.upsertRecord now k v timeoutSec).getRecord k =
      some (r.v, timeoutSec) := by
  simp [upsertRecord, hr, getRecord]

theorem getRecord_of_takesExpired {mgr rest : RecordTimeoutMgr K V} {now : ℤ}
    {expired : List (TimeoutRecord K V)}
    (h : TakesExpired mgr now expired rest) (k : K) :
    rest.getRecord k =
      if k ∈ expired.map (·.key) then none else mgr.getRecord k := by
  have hmem : k ∈ expired.map (·.key) ↔ ∃ r, mgr.recordHashMap k = some r ∧
      r.upsertTime + r.timeoutSec ≤ now := by
    constructor
    · intro hk
      obtain ⟨t, ht, rfl⟩ := List.mem_map.mp hk
      obtain ⟨r, hr, hdue, -⟩ := (h.mem_expired t).mp ht
      exact ⟨r, hr, hdue⟩
    · rintro ⟨r, hr, hdue⟩
      have ht : (⟨k, r.v, r.timeoutSec⟩ : TimeoutRecord K V) ∈ expired :=
        (h.mem_expired _).mpr ⟨r, hr, hdue, rfl, rfl⟩
      exact List.mem_map.mpr ⟨_, ht, rfl⟩
  rw [getRecord, h.records k, getRecord]
  cases hr : mgr.recordHashMap k with
  | none => simp
  | some r =>
      by_cases hdue : r.upsertTime + r.timeoutSec ≤ now
      · have hk : k ∈ expired.map (·.key) := hmem.mpr ⟨r, hr, hdue⟩
        rw [if_pos hk]
        simp [Option.filter, not_lt.mpr hdue]
      · have hk : k ∉ expired.map (·.key) := by
          intro hk
          obtain ⟨r', hr', hdue'⟩ := hmem.mp hk
          rw [hr, Option.some.injEq] at hr'
          exact hdue (hr' ▸ hdue')
        rw [if_neg hk]
        simp [Option.filter, not_le.mp hdue]

theorem notifyTimeouts_eq (react : TimeoutRecord K V → List (RecordOp K V))
    (batch : List (TimeoutRecord K V)) (mgr : RecordTimeoutMgr K V) :
    notifyTimeouts react batch mgr =
      (batch, mgr.applyOps (batch.flatMap react)) := by
  induction batch generalizing mgr with
  | nil => rfl
  | cons r rest ih =>
      simp only [notifyTimeouts, ih, applyOps, List.flatMap_cons,
        List.foldl_append]

theorem onTimer_of_takeExpired {mgr rest : RecordTimeoutMgr K V} {now : ℤ}
    {expired : List (TimeoutRecord K V)}
    (h : mgr.takeExpired now = some (expired, rest)) (order : BatchOrder K V)
    (react : TimeoutRecord K V → List (RecordOp K V)) :
    mgr.onTimer now order react =
      some (order.arrange expired,
        rest.applyOps ((order.arrange expired).flatMap react)) := by
  simp only [onTimer, h, Option.map_some, notifyTimeouts_eq]

section Survival

variable {k : K} {v : V}

theorem applyOp_keeps {mgr : RecordTimeoutMgr K V} {op : RecordOp K V}
    (hop : op ≠ .remove k)
    (h : ∃ r, mgr.recordHashMap k = some r ∧ r.v = v) :
    ∃ r, (mgr.applyOp op).recordHashMap k = some r ∧ r.v = v := by
  obtain ⟨r, hr, hv⟩ := h
  cases op with
  | upsert now k' v' timeoutSec =>
      by_cases heq : k = k'
      · subst heq
        refine ⟨{ r with upsertTime := now, timeoutSec := timeoutSec }, ?_, hv⟩
        simp [applyOp, upsertRecord, hr]
      · refine ⟨r, ?_, hv⟩
        cases hr' : mgr.recordHashMap k' <;>
          simp [applyOp, upsertRecord, hr', heq, hr]
  | remove k' =>
      have hne : k ≠ k' := by
        rintro rfl
        exact hop rfl
      refine ⟨r, ?_, hv⟩
      cases hr' : mgr.recordHashMap k' <;>
        simp [applyOp, removeRecord, hr', hne, hr]

theorem applyOps_keeps {mgr : RecordTimeoutMgr K V} {ops : List (RecordOp K V)}
    (hops : .remove k ∉ ops)
    (h : ∃ r, mgr.recordHashMap k = some r ∧ r.v = v) :
    ∃ r, (mgr.applyOps ops).recordHashMap k = some r ∧ r.v = v := by
  induction ops generalizing mgr with
  | nil => exact h
  | cons op ops ih =>
      rw [List.mem_cons, not_or] at hops
      exact ih hops.2 (applyOp_keeps (Ne.symm hops.1) h)

end Survival

/-- **Expiry is exact.**  One call of `OnTimer` takes out the records that are
due, calls `OnTimeout` once for each of them with what it was stored with, and
leaves the rest with the calls of the callbacks applied in order; a record a
callback inserts is there afterwards unless a later call removes it. -/
theorem onTimer_exact (mgr : RecordTimeoutMgr K V) (hindex : mgr.IndexOk)
    (now : ℤ) (order : BatchOrder K V)
    (react : TimeoutRecord K V → List (RecordOp K V)) :
    ∃ (told : List (TimeoutRecord K V)) (rest mgr' : RecordTimeoutMgr K V),
      mgr.onTimer now order react = some (told, mgr') ∧
      (∀ k, rest.recordHashMap k = (mgr.recordHashMap k).filter
        fun r => now < r.upsertTime + r.timeoutSec) ∧
      rest.IndexOk ∧
      (told.map (·.key)).Nodup ∧
      (∀ t, t ∈ told ↔ ∃ r, mgr.recordHashMap t.key = some r ∧
        r.upsertTime + r.timeoutSec ≤ now ∧ t.v = r.v ∧
          t.timeoutSec = r.timeoutSec) ∧
      mgr' = rest.applyOps (told.flatMap react) ∧
      ∀ before time k v timeoutSec after,
        told.flatMap react =
          before ++ .upsert time k v timeoutSec :: after →
        (rest.applyOps before).recordHashMap k = none →
        .remove k ∉ after →
        ∃ r, mgr'.recordHashMap k = some r ∧ r.v = v := by
  obtain ⟨expired, rest, hscan, htakes⟩ := hindex.takeExpired now
  have hperm := order.perm expired
  refine ⟨order.arrange expired, rest,
    rest.applyOps ((order.arrange expired).flatMap react), ?_, htakes.records,
    htakes.index, ?_, ?_, rfl, ?_⟩
  · exact onTimer_of_takeExpired hscan order react
  · exact (hperm.map (·.key)).nodup_iff.mpr htakes.nodup
  · intro t
    rw [hperm.mem_iff]
    exact htakes.mem_expired t
  · intro before time k v timeoutSec after hops hnone hafter
    have hinserted : ∃ r, ((rest.applyOps before).upsertRecord time k v
        timeoutSec).recordHashMap k = some r ∧ r.v = v :=
      ⟨⟨v, time, timeoutSec⟩, by simp [upsertRecord, hnone], rfl⟩
    rw [hops, applyOps, List.foldl_append, List.foldl_cons]
    exact applyOps_keeps hafter hinserted

/-- Two records, of which the first is due and set again by its callback. -/
theorem onTimer_exact_set_again :
    ∃ (told : List (TimeoutRecord ℕ ℕ)) (rest mgr' : RecordTimeoutMgr ℕ ℕ),
      ((empty.upsertRecord 0 1 10 5).upsertRecord 0 2 20 9).onTimer 7
        (BatchOrder.scan ℕ ℕ) (fun t => [.upsert 7 t.key 30 5]) =
          some (told, mgr') ∧
      (told.map (·.key)).Nodup ∧
      mgr' = rest.applyOps
        (told.flatMap fun t => [.upsert 7 t.key 30 5]) := by
  have hindex : ((empty.upsertRecord 0 1 10 5).upsertRecord 0 2 20 9 :
      RecordTimeoutMgr ℕ ℕ).IndexOk :=
    (IndexOk.empty.upsertRecord 0 1 10 5).upsertRecord 0 2 20 9
  obtain ⟨told, rest, mgr', htimer, -, -, hnodup, -, hops, -⟩ :=
    onTimer_exact _ hindex 7 (BatchOrder.scan ℕ ℕ)
      fun t => [.upsert 7 t.key 30 5]
  exact ⟨told, rest, mgr', htimer, hnodup, hops⟩

end RecordTimeoutMgr

/-- A table in a run: the entries of `timeout_records` whose `OnTimeout` is still
to be called, and for each key what the last `UpsertRecord` of it passed, as
long as the key is in the table and as it was when the key last expired. -/
structure MgrRun (K V : Type*) where
  mgr : RecordTimeoutMgr K V
  timeoutRecords : List (TimeoutRecord K V)
  lastUpsert : K → Option (V × ℤ)
  expiredUpsert : K → Option (V × ℤ)

inductive MgrAction (K V : Type*) where
  | apply (op : RecordOp K V)
  | onTimer (now : ℤ) (order : BatchOrder K V)
  | onTimeout

namespace MgrRun

open LabelledRun RecordTimeoutMgr

variable {K V : Type*} [DecidableEq K]

def init : MgrRun K V where
  mgr := .empty
  timeoutRecords := []
  lastUpsert := fun _ => none
  expiredUpsert := fun _ => none

def noteOp (lastUpsert : K → Option (V × ℤ)) :
    RecordOp K V → K → Option (V × ℤ)
  | .upsert _ k v timeoutSec => Function.update lastUpsert k (some (v, timeoutSec))
  | .remove k => Function.update lastUpsert k none

def step (s : MgrRun K V) : MgrAction K V → Option (MgrRun K V)
  | .apply op =>
      some { s with mgr := s.mgr.applyOp op, lastUpsert := noteOp s.lastUpsert op }
  | .onTimer now order =>
      -- the timer does not fire again while its callbacks run
      if s.timeoutRecords.isEmpty then
        (s.mgr.takeExpired now).map fun (expired, rest) =>
          { mgr := rest
            timeoutRecords := order.arrange expired
            lastUpsert := fun k =>
              if k ∈ expired.map (·.key) then none else s.lastUpsert k
            expiredUpsert := s.lastUpsert }
      else none
  | .onTimeout =>
      match s.timeoutRecords with
      | [] => none
      | _ :: rest => some { s with timeoutRecords := rest }

def onTimerActions (now : ℤ) (order : BatchOrder K V)
    (react : TimeoutRecord K V → List (RecordOp K V))
    (batch : List (TimeoutRecord K V)) : List (MgrAction K V) :=
  .onTimer now order ::
    batch.flatMap fun t => .onTimeout :: (react t).map .apply

theorem run_apply (s : MgrRun K V) (ops : List (RecordOp K V)) :
    run step s (ops.map .apply) =
      some { s with mgr := s.mgr.applyOps ops,
                    lastUpsert := ops.foldl noteOp s.lastUpsert } := by
  induction ops generalizing s with
  | nil => rfl
  | cons op ops ih =>
      simp only [List.map_cons, run, step, Option.bind_some, ih, applyOps,
        List.foldl_cons]

/-- `OnTimer` as the source writes it is a run of its actions. -/
theorem run_onTimerActions {s : MgrRun K V} (hidle : s.timeoutRecords = [])
    {now : ℤ} {order : BatchOrder K V}
    {react : TimeoutRecord K V → List (RecordOp K V)}
    {told : List (TimeoutRecord K V)} {mgr' : RecordTimeoutMgr K V}
    (h : s.mgr.onTimer now order react = some (told, mgr')) :
    (run step s (onTimerActions now order react told)).map (·.mgr) =
      some mgr' := by
  have hbatch : ∀ (batch : List (TimeoutRecord K V)) (t : MgrRun K V),
      t.timeoutRecords = batch →
      (run step t (batch.flatMap
        fun r => .onTimeout :: (react r).map .apply)).map (·.mgr) =
          some (t.mgr.applyOps (batch.flatMap react)) := by
    intro batch
    induction batch with
    | nil => intro t _; rfl
    | cons r rest ih =>
        intro t ht
        simp only [List.flatMap_cons, List.cons_append, run, step, ht,
          Option.bind_some, run_append, run_apply]
        rw [ih _ rfl, applyOps, applyOps, applyOps, ← List.foldl_append]
  cases hscan : s.mgr.takeExpired now with
  | none => simp [RecordTimeoutMgr.onTimer, hscan] at h
  | some taken =>
      obtain ⟨expired, rest⟩ := taken
      rw [onTimer_of_takeExpired hscan, Option.some.injEq, Prod.mk.injEq] at h
      obtain ⟨rfl, rfl⟩ := h
      simp only [onTimerActions, run, step, hidle, List.isEmpty_nil, if_true,
        hscan, Option.map_some, Option.bind_some]
      exact hbatch _ _ rfl

theorem step_indexOk {s s' : MgrRun K V} {a : MgrAction K V}
    (h : s.mgr.IndexOk) (hstep : step s a = some s') : s'.mgr.IndexOk := by
  cases a with
  | apply op =>
      simp only [step, Option.some.injEq] at hstep
      exact hstep ▸ h.applyOp op
  | onTimer now order =>
      obtain ⟨expired, rest, hscan, htakes⟩ := h.takeExpired now
      by_cases hidle : s.timeoutRecords.isEmpty
      · simp only [step, hidle, if_true, hscan, Option.map_some,
          Option.some.injEq] at hstep
        exact hstep ▸ htakes.index
      · simp [step, hidle] at hstep
  | onTimeout =>
      cases hbatch : s.timeoutRecords with
      | nil => simp [step, hbatch] at hstep
      | cons r rest =>
          simp only [step, hbatch, Option.some.injEq] at hstep
          exact hstep ▸ h

/-- **The index invariant.**  In every state of every run the multimap is the
index of the records, so that the scan of `OnTimer` meets no entry without a
record and ends. -/
theorem run_indexOk (as : List (MgrAction K V)) :
    Along step
      (fun s => s.mgr.IndexOk ∧ ∀ now, (s.mgr.takeExpired now).isSome)
      (fun _ _ _ => True) init as := by
  have hgood : ∀ s : MgrRun K V, s.mgr.IndexOk →
      s.mgr.IndexOk ∧ ∀ now, (s.mgr.takeExpired now).isSome := by
    intro s h
    refine ⟨h, fun now => ?_⟩
    obtain ⟨expired, rest, hscan, -⟩ := h.takeExpired now
    rw [hscan]
    rfl
  exact along_of_inv hgood (fun s a s' h hstep => ⟨step_indexOk h hstep, trivial⟩)
    as IndexOk.empty

/-- What `GetRecord` and the notifications owe the user of the table. -/
def Refreshed (s : MgrRun K V) : Prop :=
  (∀ k, s.mgr.getRecord k = s.lastUpsert k) ∧
    ∀ t ∈ s.timeoutRecords, s.expiredUpsert t.key = some (t.v, t.timeoutSec)

/-- The action does not update a record with a value other than the stored one. -/
def KeepsValue (s : MgrRun K V) : MgrAction K V → Prop
  | .apply (.upsert _ k v _) => ∀ r, s.mgr.recordHashMap k = some r → r.v = v
  | _ => True

theorem getRecord_applyOp {mgr : RecordTimeoutMgr K V}
    {lastUpsert : K → Option (V × ℤ)}
    (h : ∀ k, mgr.getRecord k = lastUpsert k) {op : RecordOp K V}
    (hop : ∀ now k v timeoutSec, op = .upsert now k v timeoutSec →
      ∀ r, mgr.recordHashMap k = some r → r.v = v) (k' : K) :
    (mgr.applyOp op).getRecord k' = noteOp lastUpsert op k' := by
  have hk' := h k'
  cases op with
  | upsert now k v timeoutSec =>
      by_cases heq : k' = k
      · subst heq
        cases hr : mgr.recordHashMap k' with
        | none => simp [applyOp, upsertRecord, hr, getRecord, noteOp]
        | some r =>
            have hv : r.v = v := hop now k' v timeoutSec rfl r hr
            simp [applyOp, upsertRecord, hr, getRecord, noteOp, hv]
      · rw [noteOp, Function.update_of_ne heq, ← hk', getRecord, getRecord]
        cases hr : mgr.recordHashMap k <;>
          simp [applyOp, upsertRecord, hr, heq]
  | remove k =>
      by_cases heq : k' = k
      · subst heq
        cases hr : mgr.recordHashMap k' <;>
          simp [applyOp, removeRecord, hr, getRecord, noteOp]
      · rw [noteOp, Function.update_of_ne heq, ← hk', getRecord, getRecord]
        cases hr : mgr.recordHashMap k <;>
          simp [applyOp, removeRecord, hr, heq]

theorem step_refreshed {s s' : MgrRun K V} {a : MgrAction K V}
    (hindex : s.mgr.IndexOk) (h : s.Refreshed) (hguard : s.KeepsValue a)
    (hstep : step s a = some s') : s'.Refreshed := by
  obtain ⟨hget, htold⟩ := h
  cases a with
  | apply op =>
      simp only [step, Option.some.injEq] at hstep
      subst hstep
      refine ⟨fun k => getRecord_applyOp hget ?_ k, htold⟩
      rintro now k v timeoutSec rfl
      exact hguard
  | onTimer now order =>
      obtain ⟨expired, rest, hscan, htakes⟩ := hindex.takeExpired now
      by_cases hidle : s.timeoutRecords.isEmpty
      · simp only [step, hidle, if_true, hscan, Option.map_some,
          Option.some.injEq] at hstep
        subst hstep
        constructor
        · intro k
          change rest.getRecord k = _
          rw [getRecord_of_takesExpired htakes k, hget k]
        · intro t ht
          have hmem : t ∈ expired := (order.perm expired).mem_iff.mp ht
          obtain ⟨r, hr, -, hv, htimeout⟩ := (htakes.mem_expired t).mp hmem
          change s.lastUpsert t.key = _
          rw [← hget, getRecord, hr, hv, htimeout]
          rfl
      · simp [step, hidle] at hstep
  | onTimeout =>
      cases hbatch : s.timeoutRecords with
      | nil => simp [step, hbatch] at hstep
      | cons r rest =>
          simp only [step, hbatch, Option.some.injEq] at hstep
          subst hstep
          refine ⟨hget, fun t ht => htold t ?_⟩
          rw [hbatch]
          exact List.mem_cons_of_mem r ht

theorem keepsValue_of_refreshed {s s' : MgrRun K V} {a : MgrAction K V}
    (hstep : step s a = some s') (h : s'.Refreshed) : s.KeepsValue a := by
  cases a with
  | apply op =>
      cases op with
      | upsert now k v timeoutSec =>
          intro r hr
          simp only [step, Option.some.injEq] at hstep
          subst hstep
          have hget := h.1 k
          simp only [applyOp, noteOp, getRecord_upsertRecord_of_some hr,
            Function.update_self, Option.some.injEq, Prod.mk.injEq] at hget
          exact hget.1
      | remove k => trivial
  | onTimer now order => trivial
  | onTimeout => trivial

/-- **A map with refresh.**  `GetRecord` and the notifications hand out what the
last upsert passed, all along a run, exactly when no upsert of the run meets a
record of the key that holds another value. -/
theorem refreshed_iff_keepsValue (as : List (MgrAction K V)) :
    Along step Refreshed (fun _ _ _ => True) init as ↔
      Guarded step KeepsValue init as := by
  have hgood : ∀ s : MgrRun K V, s.mgr.IndexOk ∧ s.Refreshed → s.Refreshed :=
    fun _ h => h.2
  refine along_iff_guarded hgood ?_ ?_ as ⟨IndexOk.empty, ?_⟩
  · intro s a s' h hguard hstep
    have hindex' := step_indexOk h.1 hstep
    exact ⟨⟨hindex', step_refreshed h.1 h.2 hguard hstep⟩, trivial⟩
  · intro s a s' _ hstep _ hgood'
    exact keepsValue_of_refreshed hstep hgood'
  · exact ⟨fun _ => rfl, by simp [init]⟩

/-- The second upsert of a key leaves the first value in the table. -/
theorem refreshed_not_updated :
    ∃ s : MgrRun ℕ ℕ,
      run step init
        [.apply (.upsert 0 1 10 5), .apply (.upsert 1 1 20 5)] = some s ∧
      s.lastUpsert 1 = some (20, 5) ∧ s.mgr.getRecord 1 = some (10, 5) ∧
      ¬ s.Refreshed := by
  refine ⟨_, rfl, rfl, rfl, fun h => ?_⟩
  have hget := h.1 1
  revert hget
  decide

end MgrRun

end CommonComponent
