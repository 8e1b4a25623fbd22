import CommonComponent.LabelledRun
import CommonComponent.TimerAxis

/-!
# Runs of the timer table

The event loop calls one callback at a time, and a callback may set and kill
timers like any other code of the thread.  A run therefore has the callback's
begin and end as two actions, with calls of `SetTimer` and `KillTimer` before,
between and behind them.

All along a run the keys that exist are those with a pending event, the loop
calls only sinks of such keys, and a killed key is not called until it is set
again.
-/

namespace CommonComponent

/-- A timer table in a run: the callback that is running, with the dispatcher's
copy of its counter; the calls made so far, oldest first; and the keys that
were killed and not set again. -/
structure TimerRun (S : Type*) where
  axis : TimerAxis S
  running : Option (TimerKey S × ℕ)
  calls : List (TimerCall S)
  killed : TimerKey S → Bool

inductive TimerAction (S : Type*) where
  | setTimer (env : SetTimerEnv) (sink : Option S) (timerId : ℤ)
      (data : Option DataPtr) (len : ℕ) (totalTimes : ℤ)
  | killTimer (eventDel : Bool) (sink : Option S) (timerId : ℤ)
  | onTimer (e : ℕ)
  | callbackReturns

namespace TimerRun

open LabelledRun

variable {S : Type*} [DecidableEq S]

def init : TimerRun S where
  axis := .empty
  running := none
  calls := []
  killed := fun _ => false

def step (s : TimerRun S) : TimerAction S → Option (TimerRun S)
  | .setTimer env sink timerId data len totalTimes =>
      let (axis, done) := s.axis.setTimer env sink timerId data len totalTimes
      some { s with
        axis := axis
        killed :=
          if done then Function.update s.killed ⟨sink, timerId⟩ false
          else s.killed }
  | .killTimer eventDel sink timerId =>
      some { s with
        axis := s.axis.killTimer eventDel sink timerId
        killed :=
          if eventDel then Function.update s.killed ⟨sink, timerId⟩ true
          else s.killed }
  | .onTimer e =>
      match s.running with
      | some _ => none
      | none =>
          (s.axis.callTimer e).map fun (axis, k, call) =>
            { s with
              axis := axis
              running := some (k, call.times)
              calls := s.calls ++ [call] }
  | .callbackReturns =>
      match s.running with
      | none => none
      | some (k, times) =>
          (s.axis.finishTimer k times).map fun axis =>
            { s with axis := axis, running := none }

structure Inv (s : TimerRun S) : Prop where
  axis : s.axis.Ok
  running : ∀ k times, s.running = some (k, times) →
    (s.axis.timerHashMap k).isSome
  killed : ∀ k timer, s.killed k = true →
    s.axis.timerHashMap k = some timer → timer.removed = true

/-- What a step does, with the entries it leaves. -/
inductive Steps (s : TimerRun S) : TimerAction S → TimerRun S → Prop where
  | setTimer {env sink timerId data len totalTimes axis'} {done : Bool}
      (hset : s.axis.setTimer env sink timerId data len totalTimes =
        (axis', done))
      (hsets : s.axis.SetsTimer ⟨sink, timerId⟩ data len totalTimes
        (axis', done)) :
      Steps s (.setTimer env sink timerId data len totalTimes)
        { s with
          axis := axis'
          killed := if done then
            Function.update s.killed ⟨sink, timerId⟩ false else s.killed }
  | killTimer {eventDel sink timerId axis'} (hok : axis'.Ok)
      (hafter : axis'.timerHashMap = if eventDel then
          Function.update s.axis.timerHashMap ⟨sink, timerId⟩
            ((s.axis.timerHashMap ⟨sink, timerId⟩).map
              fun timer => { timer with removed := true })
        else s.axis.timerHashMap) :
      Steps s (.killTimer eventDel sink timerId)
        { s with
          axis := axis'
          killed := if eventDel then
            Function.update s.killed ⟨sink, timerId⟩ true else s.killed }
  | onTimer {e k timer axis'} (hidle : s.running = none)
      (hentry : s.axis.timerHashMap k = some timer)
      (hremoved : timer.removed = false) (hok : axis'.Ok)
      (hafter : axis'.timerHashMap = Function.update s.axis.timerHashMap k
        (some { timer with times := timer.times + 1 })) :
      Steps s (.onTimer e)
        { s with
          axis := axis'
          running := some (k, timer.times + 1)
          calls := s.calls ++ [⟨k, timer.data, timer.len, timer.times + 1⟩] }
  | callbackReturns {k times timer axis'}
      (hrunning : s.running = some (k, times))
      (hentry : s.axis.timerHashMap k = some timer) (hok : axis'.Ok)
      (hafter : axis'.timerHashMap = if timer.finished times then
          Function.update s.axis.timerHashMap k none
        else s.axis.timerHashMap) :
      Steps s .callbackReturns { s with axis := axis', running := none }

theorem step_steps {s s' : TimerRun S} {a : TimerAction S} (h : s.Inv)
    (hstep : s.step a = some s') : Steps s a s' := by
  cases a with
  | setTimer env sink timerId data len totalTimes =>
      have hsets := h.axis.setTimer env sink timerId data len totalTimes
      cases hset : s.axis.setTimer env sink timerId data len totalTimes with
      | mk axis' done =>
          rw [hset] at hsets
          simp only [step, hset, Option.some.injEq] at hstep
          exact hstep ▸ .setTimer hset hsets
  | killTimer eventDel sink timerId =>
      obtain ⟨hok, hafter⟩ := h.axis.killTimer eventDel sink timerId
      simp only [step, Option.some.injEq] at hstep
      exact hstep ▸ .killTimer hok hafter
  | onTimer e =>
      cases hrunning : s.running with
      | some r => simp [step, hrunning] at hstep
      | none =>
          simp only [step, hrunning, Option.map_eq_some_iff] at hstep
          obtain ⟨⟨axis', k, call⟩, hcall, rfl⟩ := hstep
          obtain ⟨timer, hentry, hremoved, rfl, hafter, hok⟩ :=
            h.axis.callTimer hcall
          exact .onTimer hrunning hentry hremoved hok hafter
  | callbackReturns =>
      cases hrunning : s.running with
      | none => simp [step, hrunning] at hstep
      | some r =>
          obtain ⟨k, times⟩ := r
          obtain ⟨timer, hentry⟩ :=
            Option.isSome_iff_exists.mp (h.running k times hrunning)
          obtain ⟨axis', hfinish, hok, hafter⟩ :=
            h.axis.finishTimer hentry times
          simp only [step, hrunning, hfinish, Option.map_some,
            Option.some.injEq] at hstep
          exact hstep ▸ .callbackReturns hrunning hentry hok hafter

omit [DecidableEq S] in
theorem Inv.init : (init : TimerRun S).Inv where
  axis := .empty
  running := fun _ _ h => nomatch h
  killed := fun _ _ h => nomatch h

/-- After `SetTimer` every entry there was is there, and no killed entry lives
unless it was set. -/
theorem Inv.setTimer {s : TimerRun S} (h : s.Inv) {k : TimerKey S}
    {data : Option DataPtr} {len : ℕ} {totalTimes : ℤ} {axis' : TimerAxis S}
    {done : Bool}
    (hsets : s.axis.SetsTimer k data len totalTimes (axis', done)) :
    ({ s with
      axis := axis'
      killed := if done then Function.update s.killed k false else s.killed } :
        TimerRun S).Inv := by
  have hset : ∀ (timer' : Timer S) (killed' : TimerKey S → Bool), axis'.Ok →
      axis'.timerHashMap = Function.update s.axis.timerHashMap k (some timer') →
      (killed' k = true → timer'.removed = true) →
      (∀ k', k' ≠ k → killed' k' = s.killed k') →
      ({ s with axis := axis', killed := killed' } : TimerRun S).Inv := by
    intro timer' killed' hok hafter hk hne
    refine ⟨hok, ?_, ?_⟩
    · intro k' times hrunning
      by_cases heq : k' = k
      · simp [hafter, heq]
      · simpa [hafter, heq] using h.running k' times hrunning
    · intro k' timer hkilled hentry
      by_cases heq : k' = k
      · subst heq
        obtain rfl : timer' = timer := by simpa [hafter] using hentry
        exact hk hkilled
      · have hentry : s.axis.timerHashMap k' = some timer := by
          simpa [hafter, heq] using hentry
        exact h.killed k' timer (hne k' heq ▸ hkilled) hentry
  cases hsets with
  | unchanged hok hsame =>
      exact ⟨hok, hsame ▸ h.running, hsame ▸ h.killed⟩
  | failed hok hentry hremoved hremoved' hafter =>
      exact hset _ _ hok hafter (fun _ => hremoved') fun _ _ => rfl
  | again env hok hentry hremoved hfilled hafter =>
      refine hset _ _ hok hafter (fun hk => by simp at hk) fun k' hne => ?_
      simp [hne]
  | added env e hok hentry hfilled hafter =>
      refine hset _ _ hok hafter (fun hk => by simp at hk) fun k' hne => ?_
      simp [hne]

theorem Inv.steps {s s' : TimerRun S} {a : TimerAction S} (h : s.Inv)
    (hsteps : Steps s a s') : s'.Inv := by
  cases hsteps with
  | setTimer hset hsets => exact h.setTimer hsets
  | @killTimer eventDel sink timerId axis' hok hafter =>
      cases eventDel with
      | false => exact ⟨hok, hafter ▸ h.running, hafter ▸ h.killed⟩
      | true =>
          simp only [if_true] at hafter ⊢
          refine ⟨hok, ?_, ?_⟩
          · intro k times hrunning
            by_cases heq : k = ⟨sink, timerId⟩
            · subst heq
              simpa [hafter] using h.running _ times hrunning
            · simpa [hafter, heq] using h.running k times hrunning
          · intro k timer hkilled hentry
            by_cases heq : k = ⟨sink, timerId⟩
            · subst heq
              simp only [hafter, Function.update_self, Option.map_eq_some_iff]
                at hentry
              obtain ⟨_, -, rfl⟩ := hentry
              rfl
            · exact h.killed k timer (by simpa [heq] using hkilled)
                (by simpa [hafter, heq] using hentry)
  | @onTimer e k timer axis' hidle hentry hremoved hok hafter =>
      refine ⟨hok, ?_, ?_⟩
      · rintro k' times hrunning
        obtain ⟨rfl, rfl⟩ : k = k' ∧ timer.times + 1 = times := by
          simpa using hrunning
        simp [hafter]
      · intro k' timer' hkilled hentry'
        by_cases heq : k' = k
        · subst heq
          have hkilled := h.killed k' timer hkilled hentry
          rw [hremoved] at hkilled
          cases hkilled
        · exact h.killed k' timer' hkilled (by simpa [hafter, heq] using hentry')
  | @callbackReturns k times timer axis' hrunning hentry hok hafter =>
      refine ⟨hok, ?_, ?_⟩
      · intro k' times' hrunning'
        cases hrunning'
      · intro k' timer' hkilled hentry'
        refine h.killed k' timer' hkilled ?_
        simp only [hafter] at hentry'
        split_ifs at hentry' with hfinished
        · by_cases heq : k' = k
          · simp [heq] at hentry'
          · simpa [heq] using hentry'
        · exact hentry'

theorem Inv.step {s s' : TimerRun S} {a : TimerAction S} (h : s.Inv)
    (hstep : s.step a = some s') : s'.Inv :=
  h.steps (step_steps h hstep)

/-- The table and libevent agree on which keys exist. -/
structure TableOk (s : TimerRun S) : Prop where
  exist_iff : ∀ sink timerId, s.axis.timerExist sink timerId = true ↔
    ∃ timer e event, s.axis.timerHashMap ⟨sink, timerId⟩ = some timer ∧
      timer.event = some e ∧ s.axis.events e = some event ∧
      event.pending = true
  pending_exists : ∀ e event, s.axis.events e = some event →
    event.pending = true →
      s.axis.timerExist event.arg.sink event.arg.timerId = true
  /-- The entry that the dispatcher tests after the callback is there. -/
  entry_held : ∀ k times, s.running = some (k, times) →
    (s.axis.timerHashMap k).isSome

/-- A call goes to a key that exists and is not killed, and `SetTimer` leaves the
keys alone where it fails. -/
def CallsLive (s : TimerRun S) (a : TimerAction S) (s' : TimerRun S) : Prop :=
  match a with
  | .setTimer env sink timerId data len totalTimes =>
      (s.axis.setTimer env sink timerId data len totalTimes).2 = false →
        ∀ sink' timerId',
          s'.axis.timerExist sink' timerId' = s.axis.timerExist sink' timerId'
  | .onTimer _ =>
      ∃ call, s'.calls = s.calls ++ [call] ∧
        s.axis.timerExist call.key.sink call.key.timerId = true ∧
        s.killed call.key = false
  | .killTimer _ _ _ => True
  | .callbackReturns => s'.calls = s.calls

omit [DecidableEq S] in
theorem Inv.tableOk {s : TimerRun S} (h : s.Inv) : s.TableOk := by
  refine ⟨?_, ?_, h.running⟩
  · intro sink timerId
    rw [h.axis.timerExist_iff ⟨sink, timerId⟩]
    constructor
    · rintro ⟨timer, hentry, hremoved⟩
      obtain ⟨e, he, hevent⟩ := h.axis.entry _ timer hentry
      exact ⟨timer, e, _, hentry, he, hevent, by simp [hremoved]⟩
    · rintro ⟨timer, e, event, hentry, he, hevent, hpending⟩
      obtain ⟨e', he', hevent'⟩ := h.axis.entry _ timer hentry
      obtain rfl : e = e' := by simpa [he] using he'
      rw [hevent, Option.some.injEq] at hevent'
      subst hevent'
      exact ⟨timer, hentry, by simpa using hpending⟩
  · intro e event hevent hpending
    obtain ⟨timer, hentry, he⟩ := h.axis.owned e event hevent
    obtain ⟨e', he', hevent'⟩ := h.axis.entry _ timer hentry
    obtain rfl : e = e' := by simpa [he] using he'
    rw [hevent, Option.some.injEq] at hevent'
    rw [hevent'] at hpending
    exact (h.axis.timerExist_iff event.arg).mpr
      ⟨timer, hentry, by simpa using hpending⟩

/-- A `SetTimer` that fails changes neither which entries there are nor which of
them are killed. -/
theorem timerExist_of_failed {axis axis' : TimerAxis S} (h : axis.Ok)
    {k : TimerKey S} {data : Option DataPtr} {len : ℕ} {totalTimes : ℤ}
    (hsets : axis.SetsTimer k data len totalTimes (axis', false))
    (k' : TimerKey S) :
    axis'.timerExist k'.sink k'.timerId = axis.timerExist k'.sink k'.timerId := by
  rw [Bool.eq_iff_iff, h.timerExist_iff k']
  cases hsets with
  | unchanged hok hsame => rw [hok.timerExist_iff k', hsame]
  | @failed _ timer timer' hok hentry hremoved hremoved' hafter =>
      rw [hok.timerExist_iff k', hafter]
      by_cases heq : k' = k
      · simp [heq, hentry, hremoved, hremoved']
      · simp [heq]

theorem Inv.callsLive {s s' : TimerRun S} {a : TimerAction S} (h : s.Inv)
    (hstep : s.step a = some s') : CallsLive s a s' := by
  cases step_steps h hstep with
  | setTimer hset hsets =>
      intro hdone sink' timerId'
      rw [hset] at hdone
      obtain rfl := hdone
      exact timerExist_of_failed h.axis hsets ⟨sink', timerId'⟩
  | killTimer hok hafter => trivial
  | @onTimer e k timer axis' hidle hentry hremoved hok hafter =>
      refine ⟨_, rfl, (h.axis.timerExist_iff k).mpr ⟨timer, hentry, hremoved⟩, ?_⟩
      cases hkilled : s.killed k with
      | false => rfl
      | true =>
          have hdead := h.killed k timer hkilled hentry
          rw [hremoved] at hdead
          cases hdead
  | callbackReturns hrunning hentry hok hafter => rfl

/-- **The timer table.**  All along every run a key exists exactly while its
entry's event is pending, the event loop calls only keys that exist and are not
killed, and a failing `SetTimer` changes no key's existence. -/
theorem run_timerTable (as : List (TimerAction S)) :
    Along step TableOk CallsLive init as :=
  along_of_inv (fun _ => Inv.tableOk)
    (fun _ _ _ h hstep => ⟨Inv.step h hstep, Inv.callsLive h hstep⟩) as Inv.init

end TimerRun

end CommonComponent
