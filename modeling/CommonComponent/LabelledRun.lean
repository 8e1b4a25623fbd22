import Mathlib.Logic.Relation
import Mathlib.Tactic

/-!
# Runs of a partial step function

A system is a partial function `step` from states and actions to states; an
action without a next state is not enabled.  A property of runs is stated with
`Along`, which asks for something of every state met and of every step taken,
and a condition on runs with `Guarded`, which asks for something of every
action in the state it is taken in.

The two rules are the induction every safety proof needs: guarded runs keep an
invariant (`Guarded.along`), and where an unguarded step always breaks the
property the guard is the exact condition (`along_iff_guarded`).
-/

namespace LabelledRun

variable {σ α : Type*} (step : σ → α → Option σ)

/-- The state after a list of actions, if each of them is enabled in turn. -/
def run : σ → List α → Option σ
  | s, [] => some s
  | s, a :: as => (step s a).bind fun s' => run s' as

/-- Every state met from `s` on is `good`, and every step taken is `goodStep`. -/
def Along (good : σ → Prop) (goodStep : σ → α → σ → Prop) :
    σ → List α → Prop
  | s, [] => good s
  | s, a :: as =>
      good s ∧
        ∀ s', step s a = some s' → goodStep s a s' ∧ Along good goodStep s' as

/-- Every action taken from `s` on meets `guard` in the state it is taken in. -/
def Guarded (guard : σ → α → Prop) : σ → List α → Prop
  | _, [] => True
  | s, a :: as =>
      ∀ s', step s a = some s' → guard s a ∧ Guarded guard s' as

instance Guarded.decidable (guard : σ → α → Prop)
    [∀ s a, Decidable (guard s a)] :
    ∀ s as, Decidable (Guarded step guard s as)
  | _, [] => isTrue trivial
  | s, a :: as =>
      match hstep : step s a with
      | none =>
          isTrue fun s' hs' => by
            rw [hstep] at hs'
            cases hs'
      | some s' =>
          have := Guarded.decidable guard s' as
          decidable_of_iff (guard s a ∧ Guarded step guard s' as) (by
            simp only [Guarded, hstep, Option.some.injEq, forall_eq'])

variable {step}

theorem run_append (s : σ) (as bs : List α) :
    run step s (as ++ bs) = (run step s as).bind fun t => run step t bs := by
  induction as generalizing s with
  | nil => rfl
  | cons a as ih =>
      simp only [List.cons_append, run]
      cases step s a with
      | none => rfl
      | some s' => exact ih s'

theorem Along.mono {good good' : σ → Prop} {goodStep : σ → α → σ → Prop}
    (hgood : ∀ s, good s → good' s) {s : σ} {as : List α}
    (h : Along step good goodStep s as) : Along step good' goodStep s as := by
  induction as generalizing s with
  | nil => exact hgood s h
  | cons a as ih =>
      refine ⟨hgood s h.1, fun s' hstep => ?_⟩
      exact ⟨(h.2 s' hstep).1, ih (h.2 s' hstep).2⟩

theorem Along.last {good : σ → Prop} {goodStep : σ → α → σ → Prop} {s t : σ}
    {as : List α} (h : Along step good goodStep s as)
    (hrun : run step s as = some t) : good t := by
  induction as generalizing s with
  | nil =>
      simp only [run, Option.some.injEq] at hrun
      exact hrun ▸ h
  | cons a as ih =>
      simp only [run] at hrun
      cases hstep : step s a with
      | none => rw [hstep] at hrun; cases hrun
      | some s' =>
          rw [hstep, Option.bind_some] at hrun
          exact ih (h.2 s' hstep).2 hrun

theorem Along.of_append {good : σ → Prop} {goodStep : σ → α → σ → Prop}
    {s t : σ} {as bs : List α} (h : Along step good goodStep s (as ++ bs))
    (hrun : run step s as = some t) : Along step good goodStep t bs := by
  induction as generalizing s with
  | nil =>
      simp only [run, Option.some.injEq] at hrun
      exact hrun ▸ h
  | cons a as ih =>
      simp only [run] at hrun
      cases hstep : step s a with
      | none => rw [hstep] at hrun; cases hrun
      | some s' =>
          rw [hstep, Option.bind_some] at hrun
          exact ih (h.2 s' hstep).2 hrun

theorem Guarded.of_append {guard : σ → α → Prop} {s t : σ} {as bs : List α}
    (h : Guarded step guard s (as ++ bs)) (hrun : run step s as = some t) :
    Guarded step guard t bs := by
  induction as generalizing s with
  | nil =>
      simp only [run, Option.some.injEq] at hrun
      exact hrun ▸ h
  | cons a as ih =>
      simp only [run] at hrun
      cases hstep : step s a with
      | none => rw [hstep] at hrun; cases hrun
      | some s' =>
          rw [hstep, Option.bind_some] at hrun
          exact ih (h s' hstep).2 hrun

theorem Guarded.trivial (s : σ) (as : List α) :
    Guarded step (fun _ _ => True) s as := by
  induction as generalizing s with
  | nil => exact True.intro
  | cons a as ih => exact fun s' _ => ⟨True.intro, ih s'⟩

theorem Guarded.and {guard guard' : σ → α → Prop} {s : σ} {as : List α}
    (h : Guarded step guard s as) (h' : Guarded step guard' s as) :
    Guarded step (fun s a => guard s a ∧ guard' s a) s as := by
  induction as generalizing s with
  | nil => trivial
  | cons a as ih =>
      intro s' hstep
      exact ⟨⟨(h s' hstep).1, (h' s' hstep).1⟩, ih (h s' hstep).2 (h' s' hstep).2⟩

/-- **The invariant rule.**  If guarded steps keep `inv`, a guarded run meets
only states of `inv`, and each of its steps is one from a state of `inv`. -/
theorem Guarded.along {inv : σ → Prop} {guard : σ → α → Prop}
    {goodStep : σ → α → σ → Prop}
    (hkeep : ∀ s a s', inv s → guard s a → step s a = some s' →
      inv s' ∧ goodStep s a s')
    {s : σ} {as : List α} (hs : inv s) (hguard : Guarded step guard s as) :
    Along step inv goodStep s as := by
  induction as generalizing s with
  | nil => exact hs
  | cons a as ih =>
      refine ⟨hs, fun s' hstep => ?_⟩
      obtain ⟨ha, hrest⟩ := hguard s' hstep
      obtain ⟨hs', hgood⟩ := hkeep s a s' hs ha hstep
      exact ⟨hgood, ih hs' hrest⟩

theorem Guarded.invariant {inv : σ → Prop} {guard : σ → α → Prop}
    (hkeep : ∀ s a s', inv s → guard s a → step s a = some s' → inv s')
    {s t : σ} {as : List α} (hs : inv s) (hguard : Guarded step guard s as)
    (hrun : run step s as = some t) : inv t := by
  induction as generalizing s with
  | nil =>
      simp only [run, Option.some.injEq] at hrun
      exact hrun ▸ hs
  | cons a as ih =>
      simp only [run] at hrun
      cases hstep : step s a with
      | none => rw [hstep] at hrun; cases hrun
      | some s' =>
          rw [hstep, Option.bind_some] at hrun
          obtain ⟨ha, hrest⟩ := hguard s' hstep
          exact ih (hkeep s a s' hs ha hstep) hrest hrun

/-- The invariant rule for what the invariant is there to show. -/
theorem Guarded.along_of_inv {inv good : σ → Prop} {guard : σ → α → Prop}
    {goodStep : σ → α → σ → Prop} (hgood : ∀ s, inv s → good s)
    (hkeep : ∀ s a s', inv s → guard s a → step s a = some s' →
      inv s' ∧ goodStep s a s')
    {s : σ} {as : List α} (hs : inv s) (hguard : Guarded step guard s as) :
    Along step good goodStep s as :=
  (Guarded.along hkeep hs hguard).mono hgood

/-- The invariant rule for steps that need no guard. -/
theorem along_of_inv {inv good : σ → Prop} {goodStep : σ → α → σ → Prop}
    (hgood : ∀ s, inv s → good s)
    (hkeep : ∀ s a s', inv s → step s a = some s' → inv s' ∧ goodStep s a s')
    {s : σ} (as : List α) (hs : inv s) : Along step good goodStep s as :=
  Guarded.along_of_inv hgood (fun s a s' h _ => hkeep s a s' h) hs
    (Guarded.trivial s as)

theorem inv_of_run {inv : σ → Prop}
    (hkeep : ∀ s a s', inv s → step s a = some s' → inv s') {s t : σ}
    {as : List α} (hs : inv s) (hrun : run step s as = some t) : inv t :=
  Guarded.invariant (fun s a s' h _ => hkeep s a s' h) hs (Guarded.trivial s as)
    hrun

/-- The simulation rule: if each step is matched by steps of another system, seen through
`f`, then so is a run. -/
theorem run_simulates {τ : Type*} {stepTo : τ → τ → Prop} {f : σ → τ} {inv : σ → Prop}
    (hkeep : ∀ s a s', inv s → step s a = some s' →
      inv s' ∧ Relation.ReflTransGen stepTo (f s) (f s'))
    {s t : σ} {as : List α} (hs : inv s) (hrun : run step s as = some t) :
    inv t ∧ Relation.ReflTransGen stepTo (f s) (f t) := by
  induction as generalizing s with
  | nil =>
      simp only [run, Option.some.injEq] at hrun
      exact hrun ▸ ⟨hs, .refl⟩
  | cons a as ih =>
      simp only [run] at hrun
      cases hstep : step s a with
      | none => rw [hstep] at hrun; cases hrun
      | some s' =>
          rw [hstep, Option.bind_some] at hrun
          obtain ⟨hs', hsteps⟩ := hkeep s a s' hs hstep
          obtain ⟨ht, hlater⟩ := ih hs' hrun
          exact ⟨ht, hsteps.trans hlater⟩

/-- The exact-condition rule for runs of `allowed` actions. -/
theorem along_iff_guarded_of_allowed {inv good : σ → Prop}
    {guard : σ → α → Prop} {goodStep : σ → α → σ → Prop} {allowed : α → Prop}
    (hgood : ∀ s, inv s → good s)
    (hkeep : ∀ s a s', inv s → allowed a → guard s a → step s a = some s' →
      inv s' ∧ goodStep s a s')
    (hneed : ∀ s a s', inv s → allowed a → step s a = some s' →
      goodStep s a s' → good s' → guard s a)
    {s : σ} (as : List α) (hallowed : ∀ a ∈ as, allowed a) (hs : inv s) :
    Along step good goodStep s as ↔ Guarded step guard s as := by
  induction as generalizing s with
  | nil => exact ⟨fun _ => trivial, fun _ => hgood s hs⟩
  | cons a as ih =>
      rw [List.forall_mem_cons] at hallowed
      obtain ⟨hallow, hlater⟩ := hallowed
      constructor
      · rintro ⟨-, hrest⟩ s' hstep
        obtain ⟨hgoodStep, halong⟩ := hrest s' hstep
        have hgood' : good s' := by
          cases as with
          | nil => exact halong
          | cons => exact halong.1
        have ha : guard s a := hneed s a s' hs hallow hstep hgoodStep hgood'
        have hs' : inv s' := (hkeep s a s' hs hallow ha hstep).1
        exact ⟨ha, (ih hlater hs').mp halong⟩
      · intro hguard
        refine ⟨hgood s hs, fun s' hstep => ?_⟩
        obtain ⟨ha, hrest⟩ := hguard s' hstep
        obtain ⟨hs', hgoodStep⟩ := hkeep s a s' hs hallow ha hstep
        exact ⟨hgoodStep, (ih hlater hs').mpr hrest⟩

/-- **The exact-condition rule.**  If guarded steps keep `inv` and are good, and
a step is good only under its guard, then a run is good all along exactly when
it is guarded. -/
theorem along_iff_guarded {inv good : σ → Prop} {guard : σ → α → Prop}
    {goodStep : σ → α → σ → Prop}
    (hgood : ∀ s, inv s → good s)
    (hkeep : ∀ s a s', inv s → guard s a → step s a = some s' →
      inv s' ∧ goodStep s a s')
    (hneed : ∀ s a s', inv s → step s a = some s' → goodStep s a s' →
      good s' → guard s a)
    {s : σ} (as : List α) (hs : inv s) :
    Along step good goodStep s as ↔ Guarded step guard s as := by
  have hkeep' : ∀ s a s', inv s → True → guard s a → step s a = some s' →
      inv s' ∧ goodStep s a s' := fun s a s' h _ => hkeep s a s' h
  have hneed' : ∀ s a s', inv s → True → step s a = some s' →
      goodStep s a s' → good s' → guard s a := fun s a s' h _ => hneed s a s' h
  exact along_iff_guarded_of_allowed hgood hkeep' hneed' as
    (fun _ _ => trivial) hs

/-! ## Reaching a state -/

variable (step) in
/-- `t` is the state after actions from `s` on that meet `guard`. -/
def Reaches (guard : σ → α → Prop) (s t : σ) : Prop :=
  ∃ as, run step s as = some t ∧ Guarded step guard s as

theorem Reaches.refl {guard : σ → α → Prop} (s : σ) : Reaches step guard s s :=
  ⟨[], rfl, True.intro⟩

theorem Reaches.head {guard : σ → α → Prop} {s u t : σ} {a : α} (hguard : guard s a)
    (hstep : step s a = some u) (h : Reaches step guard u t) :
    Reaches step guard s t := by
  obtain ⟨as, hrun, hguarded⟩ := h
  refine ⟨a :: as, ?_, ?_⟩
  · rw [run, hstep, Option.bind_some, hrun]
  · intro u' hstep'
    obtain rfl : u = u' := Option.some.inj (hstep.symm.trans hstep')
    exact ⟨hguard, hguarded⟩

theorem Reaches.trans {guard : σ → α → Prop} {s u t : σ} (h : Reaches step guard s u)
    (h' : Reaches step guard u t) : Reaches step guard s t := by
  obtain ⟨as, hrun, hguarded⟩ := h
  induction as generalizing s with
  | nil =>
      obtain rfl : s = u := Option.some.inj hrun
      exact h'
  | cons a as ih =>
      cases hstep : step s a with
      | none =>
          rw [run, hstep] at hrun
          cases hrun
      | some s' =>
          rw [run, hstep, Option.bind_some] at hrun
          obtain ⟨ha, hrest⟩ := hguarded s' hstep
          exact .head ha hstep (ih hrun hrest)

theorem Reaches.inv {inv : σ → Prop} {guard : σ → α → Prop}
    (hkeep : ∀ s a s', inv s → guard s a → step s a = some s' → inv s') {s t : σ}
    (hs : inv s) (h : Reaches step guard s t) : inv t := by
  obtain ⟨as, hrun, hguarded⟩ := h
  exact hguarded.invariant hkeep hs hrun

end LabelledRun
