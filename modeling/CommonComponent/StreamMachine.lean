import Mathlib.Tactic

/-!
# Machines that read a stream

A machine reads a stream letter by letter and may refuse one.  `Reads` says where it
comes to with some letters; such facts are put one behind the other.
-/

namespace StreamMachine

variable {α σ : Type*}

/-- From the states of `P` the machine reads the letters and comes to a state of `Q`. -/
def Reads (machine : σ → α → Option σ) (P : σ → Prop) (letters : List α) (Q : σ → Prop) :
    Prop :=
  ∀ s, P s → ∃ s', letters.foldlM machine s = some s' ∧ Q s'

variable {machine : σ → α → Option σ} {P Q R : σ → Prop} {letters later : List α}

theorem Reads.nil (h : ∀ s, P s → Q s) : Reads machine P [] Q :=
  fun s hs => ⟨s, rfl, h s hs⟩

theorem Reads.append (h : Reads machine P letters Q) (h' : Reads machine Q later R) :
    Reads machine P (letters ++ later) R := by
  intro s hs
  obtain ⟨t, ht, hQ⟩ := h s hs
  obtain ⟨u, hu, hR⟩ := h' t hQ
  refine ⟨u, ?_, hR⟩
  rw [List.foldlM_append, ht]
  exact hu

theorem Reads.single {c : α} (h : ∀ s, P s → ∃ s', machine s c = some s' ∧ Q s') :
    Reads machine P [c] Q := by
  intro s hs
  obtain ⟨t, ht, hQ⟩ := h s hs
  refine ⟨t, ?_, hQ⟩
  rw [List.foldlM_cons, ht]
  rfl

theorem Reads.cons {c : α} (h : ∀ s, P s → ∃ s', machine s c = some s' ∧ Q s')
    (h' : Reads machine Q later R) : Reads machine P (c :: later) R :=
  (Reads.single h).append h'

end StreamMachine
