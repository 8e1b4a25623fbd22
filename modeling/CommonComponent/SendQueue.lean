import Mathlib.Data.List.Pairwise
import Mathlib.Data.List.Perm.Basic
import Mathlib.Tactic

/-!
# Two ways onto a wire

Messages are numbered as they are sent.  While no connection is up they wait in a
queue; when one comes up the queue is offered to it once, and what the connection
does not take stays in the queue, where later messages, which go to the connection
at once, leave it behind.

Along every run each connection takes its messages in the order they were sent in,
no message is taken twice, and a message is overtaken only after it has been left
behind when a connection came up.
-/

/-- `wire` has the messages taken, each with the number of the connection that took
it; `left` has the messages that a connection has left in the queue. -/
structure SendQueue where
  queue : List ℕ
  connected : Bool
  sends : ℕ
  conns : ℕ
  wire : List (ℕ × ℕ)
  left : List ℕ

namespace SendQueue

inductive Step (q : SendQueue) : SendQueue → Prop
  | lost : Step q { q with sends := q.sends + 1 }
  | direct (hup : q.connected = true) :
      Step q { q with
        sends := q.sends + 1
        wire := q.wire ++ [(q.sends, q.conns)] }
  | queued (hdown : q.connected = false) :
      Step q { q with
        sends := q.sends + 1
        queue := q.queue ++ [q.sends] }
  | up {taken kept : List ℕ} (htaken : taken.Sublist q.queue)
      (hkept : kept.Sublist q.queue) (happart : taken.Disjoint kept) :
      Step q { q with
        queue := kept
        connected := true
        conns := q.conns + 1
        wire := q.wire ++ taken.map fun n => (n, q.conns + 1)
        left := q.left ++ kept }
  | dropped {queue : List ℕ} {connected : Bool} (hqueue : queue.Sublist q.queue)
      (hup : connected = true → q.connected = true) :
      Step q { q with queue := queue, connected := connected }

/-- `queue_left` and `behind` say which waiting messages can be overtaken. -/
structure Inv (q : SendQueue) : Prop where
  queue_sorted : q.queue.Pairwise (· < ·)
  queue_lt : ∀ n ∈ q.queue, n < q.sends
  wire_lt : ∀ m ∈ q.wire, m.1 < q.sends ∧ m.2 ≤ q.conns
  apart : ∀ m ∈ q.wire, m.1 ∉ q.queue
  queue_left : q.connected = true → ∀ n ∈ q.queue, n ∈ q.left
  behind : ∀ m ∈ q.wire, ∀ n ∈ q.queue, n < m.1 → n ∈ q.left
  order : q.wire.Pairwise fun m m' => m.1 < m'.1 ∨ (m'.1 < m.1 ∧ m'.1 ∈ q.left)
  conn_order : q.wire.Pairwise fun m m' => m.2 = m'.2 → m.1 < m'.1

variable {q q' : SendQueue}

theorem Inv.empty : Inv ⟨[], false, 0, 0, [], []⟩ := by
  constructor <;> simp

theorem Inv.direct (h : q.Inv) (hup : q.connected = true) :
    Inv { q with
      sends := q.sends + 1
      wire := q.wire ++ [(q.sends, q.conns)] } where
  queue_sorted := h.queue_sorted
  queue_lt := fun n hn => (h.queue_lt n hn).trans (Nat.lt_succ_self _)
  wire_lt := by
    intro m hm
    rcases List.mem_append.mp hm with hm | hm
    · exact ⟨(h.wire_lt m hm).1.trans (Nat.lt_succ_self _), (h.wire_lt m hm).2⟩
    · rw [List.mem_singleton.mp hm]
      exact ⟨Nat.lt_succ_self _, le_rfl⟩
  apart := by
    intro m hm hqueue
    rcases List.mem_append.mp hm with hm | hm
    · exact h.apart m hm hqueue
    · rw [List.mem_singleton.mp hm] at hqueue
      exact lt_irrefl _ (h.queue_lt _ hqueue)
  queue_left := h.queue_left
  behind := fun _ _ n hn _ => h.queue_left hup n hn
  order := by
    refine List.pairwise_append.mpr ⟨h.order, List.pairwise_singleton _ _, ?_⟩
    intro m hm m' hm'
    rw [List.mem_singleton.mp hm']
    exact .inl (h.wire_lt m hm).1
  conn_order := by
    refine List.pairwise_append.mpr ⟨h.conn_order, List.pairwise_singleton _ _, ?_⟩
    intro m hm m' hm' _
    rw [List.mem_singleton.mp hm']
    exact (h.wire_lt m hm).1

theorem Inv.queued (h : q.Inv) (hdown : q.connected = false) :
    Inv { q with
      sends := q.sends + 1
      queue := q.queue ++ [q.sends] } where
  queue_sorted := by
    refine List.pairwise_append.mpr ⟨h.queue_sorted, List.pairwise_singleton _ _, ?_⟩
    intro n hn n' hn'
    rw [List.mem_singleton.mp hn']
    exact h.queue_lt n hn
  queue_lt := by
    intro n hn
    rcases List.mem_append.mp hn with hn | hn
    · exact (h.queue_lt n hn).trans (Nat.lt_succ_self _)
    · rw [List.mem_singleton.mp hn]
      exact Nat.lt_succ_self _
  wire_lt := fun m hm =>
    ⟨(h.wire_lt m hm).1.trans (Nat.lt_succ_self _), (h.wire_lt m hm).2⟩
  apart := by
    intro m hm hqueue
    rcases List.mem_append.mp hqueue with hqueue | hqueue
    · exact h.apart m hm hqueue
    · exact (h.wire_lt m hm).1.ne (List.mem_singleton.mp hqueue)
  queue_left := by simp [hdown]
  behind := by
    intro m hm n hn hlt
    rcases List.mem_append.mp hn with hn | hn
    · exact h.behind m hm n hn hlt
    · rw [List.mem_singleton.mp hn] at hlt
      exact absurd hlt (h.wire_lt m hm).1.not_gt
  order := h.order
  conn_order := h.conn_order

theorem Inv.up (h : q.Inv) {taken kept : List ℕ}
    (htaken : taken.Sublist q.queue) (hkept : kept.Sublist q.queue)
    (happart : taken.Disjoint kept) :
    Inv { q with
      queue := kept
      connected := true
      conns := q.conns + 1
      wire := q.wire ++ taken.map fun n => (n, q.conns + 1)
      left := q.left ++ kept } where
  queue_sorted := h.queue_sorted.sublist hkept
  queue_lt := fun n hn => h.queue_lt n (hkept.subset hn)
  wire_lt := by
    intro m hm
    rcases List.mem_append.mp hm with hm | hm
    · exact ⟨(h.wire_lt m hm).1, (h.wire_lt m hm).2.trans (Nat.le_succ _)⟩
    · obtain ⟨n, hn, rfl⟩ := List.mem_map.mp hm
      exact ⟨h.queue_lt n (htaken.subset hn), le_rfl⟩
  apart := by
    intro m hm hqueue
    rcases List.mem_append.mp hm with hm | hm
    · exact h.apart m hm (hkept.subset hqueue)
    · obtain ⟨n, hn, rfl⟩ := List.mem_map.mp hm
      exact happart hn hqueue
  queue_left := fun _ n hn => List.mem_append_right _ hn
  behind := fun _ _ n hn _ => List.mem_append_right _ hn
  order := by
    refine List.pairwise_append.mpr ⟨?_, ?_, ?_⟩
    · exact h.order.imp fun hmm =>
        hmm.imp_right fun hover => ⟨hover.1, List.mem_append_left _ hover.2⟩
    · exact List.pairwise_map.mpr
        ((h.queue_sorted.sublist htaken).imp fun hlt => .inl hlt)
    · intro m hm m' hm'
      obtain ⟨n, hn, rfl⟩ := List.mem_map.mp hm'
      have hqueue := htaken.subset hn
      rcases lt_trichotomy m.1 n with hlt | heq | hlt
      · exact .inl hlt
      · exact absurd hqueue (heq ▸ h.apart m hm)
      · exact .inr ⟨hlt, List.mem_append_left _ (h.behind m hm n hqueue hlt)⟩
  conn_order := by
    refine List.pairwise_append.mpr ⟨h.conn_order, ?_, ?_⟩
    · have hsorted := h.queue_sorted.sublist htaken
      exact List.pairwise_map.mpr (hsorted.imp fun hlt (_ : _ = _) => hlt)
    · intro m hm m' hm' heq
      obtain ⟨n, hn, rfl⟩ := List.mem_map.mp hm'
      exact absurd (heq ▸ (h.wire_lt m hm).2) (Nat.not_succ_le_self _)

/-- **Every step keeps the order.** -/
theorem Inv.keep (h : q.Inv) (hstep : Step q q') : q'.Inv := by
  cases hstep with
  | lost =>
      exact { h with
        queue_lt := fun n hn => (h.queue_lt n hn).trans (Nat.lt_succ_self _)
        wire_lt := fun m hm =>
          ⟨(h.wire_lt m hm).1.trans (Nat.lt_succ_self _), (h.wire_lt m hm).2⟩ }
  | direct hup => exact h.direct hup
  | queued hdown => exact h.queued hdown
  | up htaken hkept happart => exact h.up htaken hkept happart
  | dropped hqueue hup =>
      exact { h with
        queue_sorted := h.queue_sorted.sublist hqueue
        queue_lt := fun n hn => h.queue_lt n (hqueue.subset hn)
        apart := fun m hm hmem => h.apart m hm (hqueue.subset hmem)
        queue_left := fun hconn n hn => h.queue_left (hup hconn) n (hqueue.subset hn)
        behind := fun m hm n hn => h.behind m hm n (hqueue.subset hn) }

theorem Inv.once (h : q.Inv) : (q.wire.map Prod.fst).Nodup :=
  List.pairwise_map.mpr (h.order.imp fun hmm => hmm.elim ne_of_lt fun hover =>
    hover.1.ne')

end SendQueue
