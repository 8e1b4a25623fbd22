import Mathlib.Tactic

/-!
# Loops with fuel

`loop body` is a `while (true)` whose body either leaves with a result or goes on
with a new state.  The body is given the number of the pass, so that it may ask an
environment that answers differently each time.  A loop `Ends` when some fuel is
enough.

`Ends.of_measure` is the rule for loops that may repeat a pass without effect:
every state needs only one later pass that leaves or lowers the measure.
-/

namespace FueledLoop

variable {σ ρ : Type*} (body : ℕ → σ → ρ ⊕ σ)

/-- The result of the loop from pass `k` on, if `fuel` passes are enough for it. -/
def loop : ℕ → ℕ → σ → Option ρ
  | 0, _, _ => none
  | fuel + 1, k, s =>
      match body k s with
      | .inl r => some r
      | .inr s' => loop fuel (k + 1) s'

def Ends (k : ℕ) (s : σ) (r : ρ) : Prop := ∃ fuel, loop body fuel k s = some r

variable {body}

theorem Ends.leave {k : ℕ} {s : σ} {r : ρ} (h : body k s = .inl r) :
    Ends body k s r := ⟨1, by simp [loop, h]⟩

theorem Ends.pass {k : ℕ} {s s' : σ} {r : ρ} (h : body k s = .inr s')
    (hrest : Ends body (k + 1) s' r) : Ends body k s r := by
  obtain ⟨fuel, hfuel⟩ := hrest
  exact ⟨fuel + 1, by simp [loop, h, hfuel]⟩

theorem Ends.of_pass {k : ℕ} {s s' : σ} {r : ρ} (h : body k s = .inr s')
    (hends : Ends body k s r) : Ends body (k + 1) s' r := by
  obtain ⟨fuel, hfuel⟩ := hends
  cases fuel with
  | zero => cases hfuel
  | succ fuel => exact ⟨fuel, by simpa [loop, h] using hfuel⟩

theorem Ends.passes {k : ℕ} {s : σ} {r : ρ} {d : ℕ}
    (hsame : ∀ i, k ≤ i → i < k + d → body i s = .inr s)
    (hrest : Ends body (k + d) s r) : Ends body k s r := by
  induction d generalizing k with
  | zero => exact hrest
  | succ d ih =>
      refine .pass (hsame k le_rfl (by omega)) (ih (fun i hle hlt => ?_) ?_)
      · exact hsame i (by omega) (by omega)
      · rwa [show k + 1 + d = k + (d + 1) by omega]

/-- **The measure rule.**  From every state of `inv` the loop repeats the state for
a while and then leaves, or goes on in `inv` with a smaller measure. -/
theorem Ends.of_measure {β : Type*} [Preorder β] [WellFoundedLT β] {inv : σ → Prop}
    {good : ρ → Prop} (measure : σ → β)
    (hprogress : ∀ k s, inv s → ∃ d, (∀ i, k ≤ i → i < k + d → body i s = .inr s) ∧
      ((∃ r, body (k + d) s = .inl r ∧ good r) ∨
        ∃ s', body (k + d) s = .inr s' ∧ inv s' ∧ measure s' < measure s))
    (k : ℕ) {s : σ} (hs : inv s) : ∃ r, Ends body k s r ∧ good r := by
  induction hm : measure s using WellFoundedLT.induction generalizing k s with
  | ind m ih =>
      obtain ⟨d, hsame, ⟨r, hleave, hr⟩ | ⟨s', hpass, hs', hlt⟩⟩ := hprogress k s hs
      · exact ⟨r, .passes hsame (.leave hleave), hr⟩
      · obtain ⟨r, hrest, hr⟩ := ih (measure s') (hm ▸ hlt) (k + d + 1) hs' rfl
        exact ⟨r, .passes hsame (.pass hpass hrest), hr⟩

/-- **The variant rule.**  The variant is carried by the invariant, for a measure that is
not a function of the state. -/
theorem Ends.of_variant {β : Type*} [Preorder β] [WellFoundedLT β] {inv : β → σ → Prop}
    {good : ρ → Prop}
    (hprogress : ∀ k v s, inv v s → (∃ r, body k s = .inl r ∧ good r) ∨
      ∃ s', body k s = .inr s' ∧ ∃ v' < v, inv v' s')
    (k : ℕ) {v : β} {s : σ} (hs : inv v s) : ∃ r, Ends body k s r ∧ good r := by
  induction v using WellFoundedLT.induction generalizing k s with
  | ind v ih =>
      rcases hprogress k v s hs with ⟨r, hleave, hr⟩ | ⟨s', hpass, v', hlt, hs'⟩
      · exact ⟨r, .leave hleave, hr⟩
      · obtain ⟨r, hrest, hr⟩ := ih v' hlt (k + 1) hs'
        exact ⟨r, .pass hpass hrest, hr⟩

/-- A loop that keeps `inv` without leaving never ends. -/
theorem not_ends_of_inv {inv : σ → Prop}
    (hpass : ∀ k s, inv s → ∃ s', body k s = .inr s' ∧ inv s') (k : ℕ) {s : σ}
    (hs : inv s) (r : ρ) : ¬Ends body k s r := by
  rintro ⟨fuel, hfuel⟩
  induction fuel generalizing k s with
  | zero => simp [loop] at hfuel
  | succ fuel ih =>
      obtain ⟨s', hbody, hs'⟩ := hpass k s hs
      rw [loop, hbody] at hfuel
      exact ih (k + 1) hs' hfuel

theorem loop_succ {fuel k : ℕ} {s : σ} {r : ρ} (h : loop body fuel k s = some r) :
    loop body (fuel + 1) k s = some r := by
  induction fuel generalizing k s with
  | zero => simp [loop] at h
  | succ fuel ih =>
      rw [loop] at h ⊢
      cases hbody : body k s with
      | inl r' => simpa [hbody] using h
      | inr s' =>
          rw [hbody] at h
          exact ih h

theorem loop_mono {fuel fuel' k : ℕ} {s : σ} {r : ρ} (hle : fuel ≤ fuel')
    (h : loop body fuel k s = some r) : loop body fuel' k s = some r := by
  induction hle with
  | refl => exact h
  | step _ ih => exact loop_succ ih

theorem Ends.unique {k : ℕ} {s : σ} {r r' : ρ} (h : Ends body k s r)
    (h' : Ends body k s r') : r = r' := by
  obtain ⟨fuel, hfuel⟩ := h
  obtain ⟨fuel', hfuel'⟩ := h'
  have hmax := loop_mono (le_max_left fuel fuel') hfuel
  have hmax' := loop_mono (le_max_right fuel fuel') hfuel'
  exact Option.some.inj (hmax.symm.trans hmax')

end FueledLoop
