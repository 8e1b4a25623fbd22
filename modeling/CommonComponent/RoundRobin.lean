import Mathlib.Tactic

/-!
# Rotation over the members of a group

A dispatcher hands each call for a group to one of its members.  A call that asks for
a member gets it; any other call takes its turn, which moves a cursor around the group.
-/

namespace RoundRobin

variable {σ κ : Type*}

/-- `dispatch` gives the member used, `cursor` is the next turn of a group and `count`
the number of its members. -/
structure Dispatcher (σ κ : Type*) where
  dispatch : σ → κ → ℤ → Option (ℤ × σ)
  cursor : σ → κ → ℤ
  count : σ → κ → ℕ

def Valid (idx : ℤ) (n : ℕ) : Prop := 0 ≤ idx ∧ idx < n

instance (idx : ℤ) (n : ℕ) : Decidable (Valid idx n) := instDecidableAnd

/-- The members used in a list of calls. -/
def Dispatcher.run (d : Dispatcher σ κ) : σ → List (κ × ℤ) → Option (List ℤ × σ)
  | s, [] => some ([], s)
  | s, (group, idx) :: calls =>
      (d.dispatch s group idx).bind fun r =>
        (d.run r.2 calls).map fun rest => (r.1 :: rest.1, rest.2)

def turns [DecidableEq κ] (group : κ) (n : ℕ) : List (κ × ℤ) → List ℤ → List ℤ
  | call :: calls, member :: used =>
      if call.1 = group ∧ ¬ Valid call.2 n then member :: turns group n calls used
      else turns group n calls used
  | _, _ => []

structure Dispatcher.Rotates [DecidableEq κ] (d : Dispatcher σ κ) : Prop where
  explicit : ∀ s group idx, Valid idx (d.count s group) →
    d.dispatch s group idx = some (idx, s)
  turn : ∀ s group idx, ¬ Valid idx (d.count s group) →
    Valid (d.cursor s group) (d.count s group) →
      ∃ s', d.dispatch s group idx = some (d.cursor s group, s') ∧
        d.cursor s' =
          Function.update (d.cursor s) group ((d.cursor s group + 1) % d.count s group) ∧
        d.count s' = d.count s

def Dispatcher.InRange (d : Dispatcher σ κ) (s : σ) : Prop :=
  ∀ group, 1 ≤ d.count s group → Valid (d.cursor s group) (d.count s group)

/-- The member whose turn it is after `k` turns. -/
def turnAfter (start : ℤ) (n k : ℕ) : ℤ := (start + k) % n

theorem turnAfter_zero {start : ℤ} {n : ℕ} (h : Valid start n) : turnAfter start n 0 = start := by
  rw [turnAfter, Int.natCast_zero, add_zero, Int.emod_eq_of_lt h.1 h.2]

theorem turnAfter_next (start : ℤ) (n k : ℕ) :
    turnAfter ((start + 1) % n) n k = turnAfter start n (k + 1) := by
  rw [turnAfter, turnAfter, Int.emod_add_emod]
  congr 1
  push_cast
  ring

theorem valid_emod (a : ℤ) {n : ℕ} (hn : 1 ≤ n) : Valid (a % n) n :=
  ⟨Int.emod_nonneg _ (by omega), Int.emod_lt_of_pos _ (by omega)⟩

theorem eq_of_turnAfter_eq {start : ℤ} {n a i j : ℕ} (hi : i < n) (hj : j < n)
    (h : turnAfter start n (a + i) = turnAfter start n (a + j)) : i = j := by
  have hdvd : (n : ℤ) ∣ (start + ((a + j : ℕ) : ℤ)) - (start + ((a + i : ℕ) : ℤ)) :=
    Int.ModEq.dvd h
  have hdiff : (start + ((a + j : ℕ) : ℤ)) - (start + ((a + i : ℕ) : ℤ)) = (j : ℤ) - i := by
    push_cast
    ring
  rw [hdiff] at hdvd
  have hzero : (j : ℤ) - i = 0 := Int.eq_zero_of_abs_lt_dvd hdvd (by rw [abs_lt]; omega)
  omega

/-- As many turns in a row as there are members: each member has one. -/
theorem nodup_window {n m : ℕ} {start : ℤ} {window : List ℤ}
    (hwindow : window <:+: (List.range m).map (turnAfter start n))
    (hlength : window.length = n) : window.Nodup := by
  obtain ⟨front, back, hsplit⟩ := hwindow
  have hlong : front.length + window.length ≤ m := by
    have hlen := congrArg List.length hsplit
    simp only [List.length_append, List.length_map, List.length_range] at hlen
    omega
  have hget : window = (List.range n).map fun k => turnAfter start n (front.length + k) := by
    refine List.ext_getElem (by simp [hlength]) fun k hk _ => ?_
    have hentry : (front ++ window ++ back)[front.length + k]? = window[k]? := by
      rw [List.append_assoc, List.getElem?_append_right (by omega), Nat.add_sub_cancel_left,
        List.getElem?_append_left hk]
    rw [hsplit, List.getElem?_map, List.getElem?_range (by omega), List.getElem?_eq_getElem hk]
      at hentry
    simpa using hentry.symm
  rw [hget]
  refine List.Nodup.map_on (fun i hi j hj hij => ?_) List.nodup_range
  exact eq_of_turnAfter_eq (List.mem_range.mp hi) (List.mem_range.mp hj) hij

namespace Dispatcher

variable [DecidableEq κ] {d : Dispatcher σ κ}

/-- A list of calls from `s` on used the members `used` and ended in `t`. -/
structure Rotated (d : Dispatcher σ κ) (s : σ) (calls : List (κ × ℤ)) (used : List ℤ) (t : σ) :
    Prop where
  length : used.length = calls.length
  count : d.count t = d.count s
  inRange : d.InRange t
  entries : ∀ e ∈ calls.zip used, Valid e.2 (d.count s e.1.1) ∧
    (Valid e.1.2 (d.count s e.1.1) → e.2 = e.1.2)
  turns : ∀ group, ∃ m, turns group (d.count s group) calls used =
    (List.range m).map (turnAfter (d.cursor s group) (d.count s group))

theorem Rotated.nil {s : σ} (hs : d.InRange s) : d.Rotated s [] [] s :=
  ⟨rfl, rfl, hs, by simp, fun _ => ⟨0, rfl⟩⟩

theorem Rotated.explicit {s t : σ} {group : κ} {idx : ℤ} {calls : List (κ × ℤ)} {used : List ℤ}
    (hidx : Valid idx (d.count s group)) (h : d.Rotated s calls used t) :
    d.Rotated s ((group, idx) :: calls) (idx :: used) t := by
  refine ⟨by simp [h.length], h.count, h.inRange, fun e he => ?_, fun g => ?_⟩
  · rw [List.zip_cons_cons, List.mem_cons] at he
    rcases he with rfl | he
    · exact ⟨hidx, fun _ => rfl⟩
    · exact h.entries e he
  · obtain ⟨m, hm⟩ := h.turns g
    refine ⟨m, ?_⟩
    rw [RoundRobin.turns, if_neg, hm]
    rintro ⟨rfl, hinvalid⟩
    exact hinvalid hidx

theorem Rotated.turn {s s' t : σ} {group : κ} {idx : ℤ} {calls : List (κ × ℤ)} {used : List ℤ}
    (hidx : ¬ Valid idx (d.count s group)) (hcursor : Valid (d.cursor s group) (d.count s group))
    (hnext : d.cursor s' =
      Function.update (d.cursor s) group ((d.cursor s group + 1) % d.count s group))
    (hcount : d.count s' = d.count s) (h : d.Rotated s' calls used t) :
    d.Rotated s ((group, idx) :: calls) (d.cursor s group :: used) t := by
  refine ⟨by simp [h.length], h.count.trans hcount, h.inRange, fun e he => ?_, fun g => ?_⟩
  · rw [List.zip_cons_cons, List.mem_cons] at he
    rcases he with rfl | he
    · exact ⟨hcursor, fun hvalid => absurd hvalid hidx⟩
    · exact hcount ▸ h.entries e he
  · obtain ⟨m, hm⟩ := h.turns g
    rw [hcount, hnext] at hm
    by_cases hg : group = g
    · subst hg
      refine ⟨m + 1, ?_⟩
      rw [Function.update_self] at hm
      rw [RoundRobin.turns, if_pos ⟨rfl, hidx⟩, hm, List.range_succ_eq_map, List.map_cons,
        List.map_map, turnAfter_zero hcursor]
      congr 1
      exact List.map_congr_left fun k _ => turnAfter_next _ _ _
    · refine ⟨m, ?_⟩
      rw [Function.update_of_ne (Ne.symm hg)] at hm
      rw [RoundRobin.turns, if_neg fun h => hg h.1, hm]

/-- **The rotation rule.**  A rotation whose cursors are in range never fails on groups
with members. -/
theorem Rotates.rotated (hd : d.Rotates) (calls : List (κ × ℤ)) {s : σ} (hs : d.InRange s)
    (hcalls : ∀ call ∈ calls, 1 ≤ d.count s call.1) :
    ∃ used t, d.run s calls = some (used, t) ∧ d.Rotated s calls used t := by
  induction calls generalizing s with
  | nil => exact ⟨[], s, rfl, .nil hs⟩
  | cons call calls ih =>
      obtain ⟨group, idx⟩ := call
      rw [List.forall_mem_cons] at hcalls
      obtain ⟨hgroup, hlater⟩ := hcalls
      by_cases hidx : Valid idx (d.count s group)
      · obtain ⟨used, t, hrun, h⟩ := ih hs hlater
        refine ⟨idx :: used, t, ?_, h.explicit hidx⟩
        simp [run, hd.explicit s group idx hidx, hrun]
      · have hcursor := hs group hgroup
        obtain ⟨s', hdispatch, hnext, hcount⟩ := hd.turn s group idx hidx hcursor
        have hs' : d.InRange s' := by
          intro g hg
          rw [hcount] at hg ⊢
          rw [hnext]
          by_cases hgg : g = group
          · subst hgg
            rw [Function.update_self]
            exact valid_emod _ hg
          · rw [Function.update_of_ne hgg]
            exact hs g hg
        obtain ⟨used, t, hrun, h⟩ := ih hs' (by rw [hcount]; exact hlater)
        refine ⟨d.cursor s group :: used, t, ?_, h.turn hidx hcursor hnext hcount⟩
        simp [run, hdispatch, hrun]

theorem Rotated.nodup {s t : σ} {calls : List (κ × ℤ)} {used : List ℤ}
    (h : d.Rotated s calls used t) {group : κ} {window : List ℤ}
    (hwindow : window <:+: RoundRobin.turns group (d.count s group) calls used)
    (hlength : window.length = d.count s group) : window.Nodup := by
  obtain ⟨m, hm⟩ := h.turns group
  rw [hm] at hwindow
  exact nodup_window hwindow hlength

/-- What is asked of a dispatcher from the state `s` on, for calls of groups with
members. -/
def Fair (d : Dispatcher σ κ) (s : σ) : Prop :=
  ∀ calls : List (κ × ℤ), (∀ call ∈ calls, 1 ≤ d.count s call.1) →
    ∃ used t, d.run s calls = some (used, t) ∧ used.length = calls.length ∧
      (∀ e ∈ calls.zip used, Valid e.2 (d.count s e.1.1) ∧
        (Valid e.1.2 (d.count s e.1.1) → e.2 = e.1.2)) ∧
      (∀ group, 1 ≤ d.count s group → Valid (d.cursor t group) (d.count s group)) ∧
      (∀ group idx, Valid idx (d.count s group) → d.dispatch t group idx = some (idx, t)) ∧
      ∀ group window, window <:+: RoundRobin.turns group (d.count s group) calls used →
        window.length = d.count s group → window.Nodup

theorem Rotates.fair (hd : d.Rotates) {s : σ} (hs : d.InRange s) : d.Fair s := by
  intro calls hcalls
  obtain ⟨used, t, hrun, h⟩ := hd.rotated calls hs hcalls
  refine ⟨used, t, hrun, h.length, h.entries, fun group hgroup => ?_, fun group idx hidx => ?_,
    fun group window hwindow hlength => h.nodup hwindow hlength⟩
  · have hcursor := h.inRange group
    rw [h.count] at hcursor
    exact hcursor hgroup
  · exact hd.explicit t group idx (by rw [h.count]; exact hidx)

end Dispatcher

end RoundRobin
