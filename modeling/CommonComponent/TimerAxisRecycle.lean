import CommonComponent.TimerAxisData
import CommonComponent.TimerAxisRearm

/-!
# A killed entry and its data

An entry that is set again keeps its copy until `FillAsyncData` lets it go, right before
the new data is copied.  Between the two lies what a caller can get wrong: the address that
the callbacks were given is the one of that copy.
-/

namespace CommonComponent

open CopyStore

namespace TimerWorld

open LabelledRun

variable {S : Type*} [DecidableEq S]

/-- A `SetTimer` of the key that succeeds. -/
def SetsTimer (k : TimerKey S) (s : TimerWorld S) : TimerWorldAction S → Prop
  | .setTimer env sink timerId data len totalTimes =>
      ⟨sink, timerId⟩ = k ∧
        (s.run.axis.setTimer env sink timerId (dataPtr s.store.memory data len) len
          totalTimes).2 = true
  | _ => False

/-- The data can be read, also when the copy that the entry keeps is gone. -/
structure Readable (s : TimerWorld S) (k : TimerKey S) (data : Option Addr) (len : ℕ) :
    Prop where
  there : (s.store.memory.read data len).isSome
  other : ∀ b offset, data = some (.block b offset) →
    (s.store.slot k).data ≠ some (.block b 0)

/-- The key has been killed, and is not in its callback. -/
structure Killed (k : TimerKey S) (s : TimerWorld S) : Prop where
  removed : ∀ timer, s.run.axis.timerHashMap k = some timer → timer.removed = true
  idle : ∀ times, s.run.running ≠ some (k, times)

theorem Killed.inCallback {k : TimerKey S} {s : TimerWorld S} (h : Killed k s) :
    (s.run.view k).inCallback = none := by
  cases hrunning : s.run.running with
  | none => simp [TimerRun.view, hrunning]
  | some r =>
      have hne : r.1 ≠ k := by
        rintro rfl
        exact h.idle r.2 hrunning
      simp [TimerRun.view, hrunning, hne]

theorem Killed.setTimer {k : TimerKey S} {s s' : TimerWorld S} {env : SetTimerEnv}
    {sink : Option S} {timerId : ℤ} {data : Option Addr} {len : ℕ} {totalTimes : ℤ}
    {done : Bool} (hinv : s.Inv) (h : Killed k s)
    (hsets : ¬SetsTimer k s (.setTimer env sink timerId data len totalTimes))
    (hset : s.setTimer env sink timerId data len totalTimes = some (s', done)) :
    Killed k s' := by
  obtain ⟨-, hrun, haxis⟩ := setTimer_eq hset
  have hsteps := hinv.run.axis.setTimer env sink timerId (dataPtr s.store.memory data len)
    len totalTimes
  simp only [TimerRun.step, Option.some.injEq] at hrun
  rw [haxis] at hsteps
  refine ⟨fun timer htimer => ?_, fun times => ?_⟩
  · by_cases hk : k = ⟨sink, timerId⟩
    · subst hk
      have hfailed : done = false := by
        have hnot : ¬(s.run.axis.setTimer env sink timerId
          (dataPtr s.store.memory data len) len totalTimes).2 = true :=
            fun hdone => hsets ⟨rfl, hdone⟩
        rw [haxis] at hnot
        simpa using hnot
      subst hfailed
      cases hsteps with
      | unchanged hok hsame => exact h.removed timer (hsame ▸ htimer)
      | failed hok hentry hremoved hremoved' hafter =>
          rw [hafter, Function.update_self, Option.some.injEq] at htimer
          exact htimer ▸ hremoved'
    · refine h.removed timer ?_
      cases hsteps with
      | unchanged hok hsame => exact hsame ▸ htimer
      | failed hok hentry hremoved hremoved' hafter =>
          rwa [hafter, Function.update_of_ne hk] at htimer
      | again env' hok hentry hremoved hfilled hafter =>
          rwa [hafter, Function.update_of_ne hk] at htimer
      | added env' e hok hentry hfilled hafter =>
          rwa [hafter, Function.update_of_ne hk] at htimer
  · rw [← hrun]
    exact h.idle times

/-- An entry that is killed while it is not in its callback. -/
theorem killed_of_killTimer {s s' : TimerWorld S} {sink : Option S} {timerId : ℤ} (h : s.Inv)
    (hidle : ∀ times, s.run.running ≠ some (⟨sink, timerId⟩, times))
    (hkill : s.step (.killTimer true sink timerId) = some s') :
    Killed ⟨sink, timerId⟩ s' := by
  simp only [TimerWorld.step, Option.map_eq_some_iff] at hkill
  obtain ⟨run, hrun, rfl⟩ := hkill
  cases TimerRun.step_steps h.run hrun with
  | killTimer hok hafter =>
      refine ⟨fun timer htimer => ?_, hidle⟩
      dsimp only at htimer
      rw [hafter, if_pos rfl, Function.update_self, Option.map_eq_some_iff] at htimer
      obtain ⟨_, -, rfl⟩ := htimer
      rfl

theorem Killed.killTimer {k : TimerKey S} {s s' : TimerWorld S} {eventDel : Bool}
    {sink : Option S} {timerId : ℤ} (hinv : s.Inv) (h : Killed k s)
    (hkill : s.step (.killTimer eventDel sink timerId) = some s') : Killed k s' := by
  by_cases hdeleted : eventDel = true ∧ k = ⟨sink, timerId⟩
  · obtain ⟨rfl, rfl⟩ := hdeleted
    exact killed_of_killTimer hinv h.idle hkill
  · simp only [TimerWorld.step, Option.map_eq_some_iff] at hkill
    obtain ⟨run, hrun, rfl⟩ := hkill
    cases TimerRun.step_steps hinv.run hrun with
    | killTimer hok hafter =>
        refine ⟨fun timer htimer => h.removed timer ?_, h.idle⟩
        dsimp only at htimer
        rw [hafter] at htimer
        split_ifs at htimer with hdel
        · rwa [Function.update_of_ne fun hk => hdeleted ⟨hdel, hk⟩] at htimer
        · exact htimer

theorem Killed.step {k : TimerKey S} {s s' : TimerWorld S} {a : TimerWorldAction S}
    (hinv : s.Inv) (h : Killed k s) (hsets : ¬SetsTimer k s a) (hstep : s.step a = some s') :
    Killed k s' := by
  cases a with
  | setTimer env sink timerId data len totalTimes =>
      obtain ⟨⟨s₁, done⟩, hset, rfl⟩ := Option.map_eq_some_iff.mp hstep
      exact h.setTimer hinv hsets hset
  | killTimer eventDel sink timerId => exact h.killTimer hinv hstep
  | onTimer e =>
      obtain ⟨_, -, hstep⟩ := Option.bind_eq_some_iff.mp hstep
      obtain ⟨run, hrun, rfl⟩ := Option.map_eq_some_iff.mp hstep
      cases TimerRun.step_steps hinv.run hrun with
      | @onTimer _ k' timer' axis' hidle hentry hlive hok hafter =>
          have hne : k ≠ k' := by
            rintro rfl
            have hdead := h.removed timer' hentry
            rw [hlive] at hdead
            cases hdead
          refine ⟨fun timer htimer => h.removed timer ?_, fun times heq => ?_⟩
          · dsimp only at htimer
            rwa [hafter, Function.update_of_ne hne] at htimer
          · exact hne (Prod.mk.inj (Option.some.inj heq)).1.symm
  | callbackReturns =>
      obtain ⟨_, -, hstep⟩ := Option.bind_eq_some_iff.mp hstep
      obtain ⟨_, -, hstep⟩ := Option.bind_eq_some_iff.mp hstep
      obtain ⟨run, hrun, rfl⟩ := Option.map_eq_some_iff.mp hstep
      cases TimerRun.step_steps hinv.run hrun with
      | @callbackReturns k' times timer' axis' hrunning hentry hok hafter =>
          have hne : k ≠ k' := by
            rintro rfl
            exact h.idle times hrunning
          refine ⟨fun timer htimer => h.removed timer ?_, fun times' heq => ?_⟩
          · dsimp only at htimer
            rw [hafter] at htimer
            split_ifs at htimer with hfinished
            · rwa [Function.update_of_ne hne] at htimer
            · exact htimer
          · cases heq
  | clients cells =>
      obtain rfl := Option.some.inj hstep
      exact ⟨h.removed, h.idle⟩
  | finalize =>
      cases hrunning : s.run.running with
      | some r => simp [TimerWorld.step, hrunning] at hstep
      | none =>
          simp only [TimerWorld.step, hrunning, Option.some.injEq] at hstep
          subst hstep
          refine ⟨fun timer htimer => ?_, fun times heq => ?_⟩
          · cases htimer
          · cases heq

/-! ## The data of the new call -/

omit [DecidableEq S] in
theorem fillAsyncData_isSome_iff {s : TimerWorld S} (h : s.Inv) (k : TimerKey S)
    (data : Option Addr) (len : ℕ) :
    (fillAsyncData s.store.memory (s.store.slot k) true data len).isSome ↔
      (data ≠ none → 0 < len → s.Readable k data len) := by
  unfold fillAsyncData
  by_cases hnothing : data = none ∨ len < 1
  · rw [if_pos hnothing]
    refine iff_of_true rfl fun hdata hlen => ?_
    rcases hnothing with hnone | hshort
    · exact absurd hnone hdata
    · omega
  · rw [if_neg hnothing, if_neg (by omega)]
    rw [not_or] at hnothing
    have hlen : 0 < len := by omega
    simp only [releaseAsyncData, if_true, Option.isSome_map, Memory.copy, ne_eq, hnothing.1,
      not_false_eq_true, hlen, forall_const]
    constructor
    · intro hread
      have hother : ∀ b offset, data = some (.block b offset) →
          (s.store.slot k).data ≠ some (.block b 0) := by
        rintro b offset rfl hown
        rw [h.store.owned.read_release_own hown offset hlen] at hread
        cases hread
      rw [h.store.owned.read_release hother] at hread
      exact ⟨hread, hother⟩
    · intro hread
      rw [h.store.owned.read_release hread.other]
      exact hread.there

omit [DecidableEq S] in
/-- Where the axis takes the data, a failing allocation is not asked for it. -/
theorem fillAsyncData_isSome_of_filled {s : TimerWorld S} {k : TimerKey S} {alloc : Bool}
    {data : Option Addr} {len : ℕ} {timer : Timer S}
    (hfilled : (timer.fillAsyncData alloc (dataPtr s.store.memory data len) len).2 = true) :
    (fillAsyncData s.store.memory (s.store.slot k) alloc data len).isSome =
      (fillAsyncData s.store.memory (s.store.slot k) true data len).isSome := by
  cases alloc with
  | true => rfl
  | false =>
      have hnothing : data = none ∨ len < 1 := by
        cases data with
        | none => exact .inl rfl
        | some a =>
            right
            by_contra hlen
            have hne : len ≠ 0 := by omega
            simp [dataPtr, Timer.fillAsyncData, hlen, hne] at hfilled
      simp only [fillAsyncData, hnothing, if_true]

/-- Where the calls that `SetTimer` makes succeed, it comes to its end exactly when the data
is readable. -/
theorem exists_setTimer_iff {s : TimerWorld S} (h : s.Inv) {env : SetTimerEnv}
    {sink : Option S} {timerId : ℤ} {data : Option Addr} {len : ℕ} {n : ℤ}
    (hdone : (s.run.axis.setTimer env sink timerId (dataPtr s.store.memory data len) len
      n).2 = true) :
    (∃ s', s.setTimer env sink timerId data len n = some (s', true)) ↔
      (data ≠ none → 0 < len → s.Readable ⟨sink, timerId⟩ data len) := by
  have hstep : (∃ s', s.setTimer env sink timerId data len n = some (s', true)) ↔
      (s.setTimerData env sink timerId data len true).isSome := by
    rw [Option.isSome_iff_exists]
    simp only [TimerWorld.setTimer, hdone, TimerRun.step, Option.map_some]
    constructor
    · rintro ⟨s', hs'⟩
      obtain ⟨store, hstore, -⟩ := Option.bind_eq_some_iff.mp hs'
      exact ⟨store, hstore⟩
    · rintro ⟨store, hstore⟩
      exact ⟨_, by rw [hstore, Option.bind_some]⟩
  rw [hstep, ← fillAsyncData_isSome_iff h]
  have hsame := h.same ⟨sink, timerId⟩
  cases sink with
  | none => cases hdone
  | some sink =>
      cases hentry : s.run.axis.timerHashMap ⟨some sink, timerId⟩ with
      | some timer =>
          simp only [TimerAxis.setTimer, hentry, TimerAxis.setExistingTimer] at hdone
          cases hremoved : timer.removed with
          | false => simp [hremoved] at hdone
          | true =>
              simp only [setTimerData, hentry, hremoved, Bool.not_true, Bool.false_eq_true,
                if_false, Option.isSome_map]
              have hfilled : ((timer.setTotalTimes n).fillAsyncData env.allocData
                  (dataPtr s.store.memory data len) len).2 = true := by
                by_contra hfilled
                rw [Bool.not_eq_true] at hfilled
                simp [hremoved, hfilled] at hdone
              rw [fillAsyncData_isSome_of_filled hfilled]
      | none =>
          simp only [TimerAxis.setTimer, hentry, TimerAxis.setNewTimer] at hdone
          have hslot : s.store.slot ⟨some sink, timerId⟩ = .empty := by
            refine Store.slot_of_none ?_
            simpa [hentry] using hsame
          simp only [setTimerData, hentry, Option.isSome_map]
          rw [← hslot]
          have hfilled : ((Timer.new S).fillAsyncData env.allocData
              (dataPtr s.store.memory data len) len).2 = true := by
            by_contra hfilled
            rw [Bool.not_eq_true] at hfilled
            simp [hfilled] at hdone
          rw [fillAsyncData_isSome_of_filled hfilled]

/-- **A killed key set again.**  After a kill outside callbacks the next `SetTimer` of the
key whose calls succeed makes it behave as a new one exactly when it overwrites what the
entry holds by then and its data can be read when the entry's copy is gone. -/
theorem setTimer_likeFresh_iff (as bs : List (TimerWorldAction S)) (env : SetTimerEnv)
    {s₁ s₂ s : TimerWorld S} {sink : Option S} {timerId : ℤ} {data : Option Addr} {len : ℕ}
    {n : ℤ} (hrun : LabelledRun.run step init as = some s₁) (houtside : s₁.run.running = none)
    (hkill : s₁.step (.killTimer true sink timerId) = some s₂)
    (hlater : LabelledRun.run step s₂ bs = some s)
    (hbs : Guarded step (fun s b => ¬SetsTimer ⟨sink, timerId⟩ s b) s₂ bs)
    (hdone : (s.run.axis.setTimer env sink timerId (dataPtr s.store.memory data len) len
      n).2 = true) :
    (∃ s', s.setTimer env sink timerId data len n = some (s', true) ∧
      TimerRun.LikeFresh ⟨sink, timerId⟩ (dataPtr s.store.memory data len) len n s'.run) ↔
      TimerRun.Overwrites (s.run.oldTimer ⟨sink, timerId⟩) (dataPtr s.store.memory data len)
        len n ∧ (data ≠ none → 0 < len → s.Readable ⟨sink, timerId⟩ data len) := by
  have h₁ : s₁.Inv := (Inv.init.run_steps hrun).1
  have h₂ : s₂.Inv := (h₁.step hkill).1
  have hkeep : ∀ s a s', s.Inv ∧ Killed ⟨sink, timerId⟩ s → ¬SetsTimer ⟨sink, timerId⟩ s a →
      s.step a = some s' → s'.Inv ∧ Killed ⟨sink, timerId⟩ s' :=
    fun s a s' hs ha hstep => ⟨(hs.1.step hstep).1, hs.2.step hs.1 ha hstep⟩
  obtain ⟨h, hkilled⟩ :=
    hbs.invariant hkeep ⟨h₂, killed_of_killTimer h₁ (by simp [houtside]) hkill⟩ hlater
  have hfresh : ∀ s', s.setTimer env sink timerId data len n = some (s', true) →
      (TimerRun.LikeFresh ⟨sink, timerId⟩ (dataPtr s.store.memory data len) len n s'.run ↔
        TimerRun.Overwrites (s.run.oldTimer ⟨sink, timerId⟩)
          (dataPtr s.store.memory data len) len n) :=
    fun s' hset => TimerRun.likeFresh_iff_overwrites h.run hkilled.inCallback
      (setTimer_eq hset).2.1 hdone
  constructor
  · rintro ⟨s', hset, hlike⟩
    exact ⟨(hfresh s' hset).mp hlike, (exists_setTimer_iff h hdone).mp ⟨s', hset⟩⟩
  · rintro ⟨hover, hread⟩
    obtain ⟨s', hset⟩ := (exists_setTimer_iff h hdone).mpr hread
    exact ⟨s', hset, (hfresh s' hset).mpr hover⟩

def calledOnce : List (TimerWorldAction ℕ) :=
  [.setTimer TimerRun.allSucceed (some 0) 1 none 0 (-1), .onTimer 0, .callbackReturns]

/-- Killed and set with a limit, it behaves as a new one. -/
theorem setTimer_likeFresh_with_limit :
    ∃ s s' : TimerWorld ℕ,
      LabelledRun.run step init (calledOnce ++ [.killTimer true (some 0) 1]) = some s ∧
      s.setTimer TimerRun.allSucceed (some 0) 1 none 0 3 = some (s', true) ∧
      TimerRun.LikeFresh ⟨some 0, 1⟩ none 0 3 s'.run := by
  have hiff := setTimer_likeFresh_iff calledOnce [] TimerRun.allSucceed (n := 3) rfl rfl rfl
    rfl trivial (show (TimerAxis.setTimer _ _ (some 0) 1 (dataPtr _ none 0) 0 _).2 = true from rfl)
  obtain ⟨s', hset, hfresh⟩ := hiff.mpr ⟨⟨.inl (by norm_num), .inr ⟨rfl, rfl, rfl⟩⟩,
    fun hdata => absurd rfl hdata⟩
  exact ⟨_, s', rfl, hset, hfresh⟩

/-- Killed and set without a limit, it counts on where it was. -/
theorem setTimer_not_likeFresh_without_limit :
    ∃ s s' t : TimerWorld ℕ,
      LabelledRun.run step init (calledOnce ++ [.killTimer true (some 0) 1]) = some s ∧
      s.setTimer TimerRun.allSucceed (some 0) 1 none 0 (-1) = some (s', true) ∧
      s'.step (.onTimer 0) = some t ∧ t.run.calls.map (·.times) = [1, 2] ∧
      ¬TimerRun.LikeFresh ⟨some 0, 1⟩ none 0 (-1) s'.run := by
  refine ⟨_, _, _, rfl, rfl, rfl, rfl, fun h => ?_⟩
  obtain ⟨made, hcalls, hcounts, -⟩ := h.1 [.onTimer 0] _ rfl (by simp [TimerRun.Touches])
  have hmade : [⟨⟨some 0, 1⟩, none, 0, 1⟩] ++ [⟨⟨some 0, 1⟩, none, 0, 2⟩] =
      [⟨⟨some 0, 1⟩, none, 0, 1⟩] ++ made := hcalls
  obtain rfl := List.append_cancel_left hmade
  simp at hcounts

end TimerWorld

end CommonComponent
