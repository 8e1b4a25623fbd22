import Mathlib.Data.List.Basic
import Mathlib.Tactic

/-!
# Reading frames off a byte stream

A receiver keeps a buffer, appends whatever arrives to it and takes complete
frames off its head.  `Framing` is the only thing such a receiver may know: for
every buffer, whether it begins with a complete frame, can still become one, or
can never become one, and that more input does not change a decided answer.

The module is about arbitrary element and frame types.  Its main result,
`Framing.drain_append`, says that draining a buffer before or after more input
arrives gives the same frames and the same rest, so what a receiver takes off a
stream does not depend on how the stream was cut into chunks.
-/

namespace FramedStream

/-- What the head of a buffer is: not decided yet, broken for good, or a
complete frame followed by the rest of the buffer. -/
inductive Head (α φ : Type*)
  | waiting
  | broken
  | whole (frame : φ) (rest : List α)

/-- A decision procedure for the head of a buffer which later input does not
overturn, and which takes at least one element for every frame. -/
structure Framing (α φ : Type*) where
  head : List α → Head α φ
  whole_append : ∀ {b f r}, head b = .whole f r →
    ∀ c, head (b ++ c) = .whole f (r ++ c)
  broken_append : ∀ {b}, head b = .broken → ∀ c, head (b ++ c) = .broken
  whole_shorter : ∀ {b f r}, head b = .whole f r → r.length < b.length

namespace Framing

variable {α φ : Type*} (F : Framing α φ)

def StartsWhole (b : List α) : Prop := ∃ f r, F.head b = .whole f r

/-- The complete frames at the head of a buffer, in order, and what is left. -/
def drain (b : List α) : List φ × List α :=
  match h : F.head b with
  | .whole f r =>
      have := F.whole_shorter h
      let later := drain r
      (f :: later.1, later.2)
  | .waiting => ([], b)
  | .broken => ([], b)
termination_by b.length

theorem drain_whole {b : List α} {f : φ} {r : List α}
    (h : F.head b = .whole f r) :
    F.drain b = (f :: (F.drain r).1, (F.drain r).2) := by
  rw [drain]
  split
  next f' r' h' =>
    rw [h] at h'
    cases h'
    rfl
  next h' => rw [h] at h'; cases h'
  next h' => rw [h] at h'; cases h'

theorem drain_of_not_startsWhole {b : List α} (h : ¬F.StartsWhole b) :
    F.drain b = ([], b) := by
  rw [drain]
  split
  next f r h' => exact (h ⟨f, r, h'⟩).elim
  next => rfl
  next => rfl

theorem not_startsWhole_nil : ¬F.StartsWhole [] := by
  rintro ⟨f, r, h⟩
  have hshort := F.whole_shorter h
  simp at hshort

@[simp] theorem drain_nil : F.drain [] = ([], []) :=
  F.drain_of_not_startsWhole F.not_startsWhole_nil

/-- Induction along the frames at the head of a buffer. -/
theorem drain_induction {motive : List α → Prop}
    (whole : ∀ b f r, F.head b = .whole f r → motive r → motive b)
    (stop : ∀ b, ¬F.StartsWhole b → motive b) (b : List α) : motive b := by
  induction hlen : b.length using Nat.strong_induction_on generalizing b with
  | _ n ih =>
      subst hlen
      by_cases hb : F.StartsWhole b
      · obtain ⟨f, r, h⟩ := hb
        exact whole b f r h (ih r.length (F.whole_shorter h) r rfl)
      · exact stop b hb

theorem not_startsWhole_drain_rest (b : List α) :
    ¬F.StartsWhole (F.drain b).2 := by
  induction b using F.drain_induction with
  | whole b f r h ih => rw [F.drain_whole h]; exact ih
  | stop b hb => rw [F.drain_of_not_startsWhole hb]; exact hb

/-- Draining is independent of when the input arrives: the frames taken before
more input arrives are the first ones, and the rest is drained with it. -/
theorem drain_append (b c : List α) :
    F.drain (b ++ c) =
      ((F.drain b).1 ++ (F.drain ((F.drain b).2 ++ c)).1,
        (F.drain ((F.drain b).2 ++ c)).2) := by
  induction b using F.drain_induction with
  | whole b f r h ih =>
      rw [F.drain_whole (F.whole_append h c), F.drain_whole h, ih]
      rfl
  | stop b hb => simp [F.drain_of_not_startsWhole hb]

/-- More input only adds frames. -/
theorem drain_prefix {b c : List α} (h : b <+: c) : (F.drain b).1 <+: (F.drain c).1 := by
  obtain ⟨more, rfl⟩ := h
  rw [F.drain_append]
  exact List.prefix_append _ _

theorem drain_append_of_broken {b : List α}
    (h : F.head (F.drain b).2 = .broken) (c : List α) :
    F.drain (b ++ c) = ((F.drain b).1, (F.drain b).2 ++ c) := by
  have hstay : ¬F.StartsWhole ((F.drain b).2 ++ c) := by
    rintro ⟨f, r, hwhole⟩
    rw [F.broken_append h c] at hwhole
    cases hwhole
  rw [F.drain_append b c, F.drain_of_not_startsWhole hstay]
  simp

end Framing

end FramedStream
