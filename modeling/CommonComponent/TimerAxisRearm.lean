import CommonComponent.TimerAxisRun

/-!
# Setting a killed timer again

A killed entry is recycled by the next `SetTimer` of its key.  Seen from one key,
a run is a sequence of calls and returns of its callback; everything else leaves
what the key sees as it is.  From this view follows when a recycled entry counts
and carries what a new one would, and what becomes of an entry that is killed and
set again while the dispatcher still holds its counter.
-/

namespace CommonComponent

/-- What a run shows of one key: its entry, the dispatcher's counter while its
callback runs, and its calls. -/
structure KeyView (S : Type*) where
  entry : Option (Timer S)
  inCallback : Option ℕ
  calls : List (TimerCall S)

namespace TimerRun

open LabelledRun

variable {S : Type*}

def Touches (k : TimerKey S) : TimerAction S → Prop
  | .setTimer _ sink timerId _ _ _ => ⟨sink, timerId⟩ = k
  | .killTimer _ sink timerId => ⟨sink, timerId⟩ = k
  | .onTimer _ => False
  | .callbackReturns => False

/-- What a step does to a key that it neither sets nor kills. -/
inductive KeyStep (k : TimerKey S) (v : KeyView S) :
    TimerAction S → KeyView S → Prop where
  | other {a : TimerAction S}
      (hreturns : a = .callbackReturns → v.inCallback = none) : KeyStep k v a v
  | called {e : ℕ} {timer : Timer S} (hidle : v.inCallback = none)
      (hentry : v.entry = some timer) (hremoved : timer.removed = false) :
      KeyStep k v (.onTimer e)
        { entry := some { timer with times := timer.times + 1 }
          inCallback := some (timer.times + 1)
          calls := v.calls ++ [⟨k, timer.data, timer.len, timer.times + 1⟩] }
  | returned {timer : Timer S} {times : ℕ} (hcalling : v.inCallback = some times)
      (hentry : v.entry = some timer) :
      KeyStep k v .callbackReturns
        { entry := if timer.finished times then none else some timer
          inCallback := none
          calls := v.calls }

theorem KeyStep.of_eq {k : TimerKey S} {v v' : KeyView S} {a : TimerAction S}
    (hreturns : a = .callbackReturns → v.inCallback = none) (h : v' = v) :
    KeyStep k v a v' := by
  subst h
  exact .other hreturns

/-- How far a key set with a count of `n` has come after `m` calls.  A callback
that was running when the key was set still holds the old counter. -/
inductive Counting (n : ℤ) (data : Option TimerData) (len : ℕ) (m : ℕ) :
    KeyView S → Prop where
  | waiting {v : KeyView S} {timer : Timer S} (hidle : v.inCallback = none)
      (hentry : v.entry = some timer) (hremoved : timer.removed = false)
      (hcarries : timer.data = data ∧ timer.len = len)
      (htimes : timer.times = m)
      (htotal : if 0 < n then timer.totalTimes = n else timer.totalTimes ≤ 0)
      (hleft : 0 < n → m < n) : Counting n data len m v
  | calling {v : KeyView S} {timer : Timer S} {times : ℕ}
      (hcalling : v.inCallback = some times)
      (hentry : v.entry = some timer) (hremoved : timer.removed = false)
      (hcarries : timer.data = data ∧ timer.len = len)
      (htimes : timer.times = m)
      (htotal : if 0 < n then timer.totalTimes = n else timer.totalTimes ≤ 0)
      (hleft : 0 < n → m ≤ n)
      (hheld : times = m ∨ m = 0 ∧ (0 < n → times < n)) : Counting n data len m v
  | ended {v : KeyView S} (hidle : v.inCallback = none) (hentry : v.entry = none)
      (hn : 0 < n) (hm : m = n) : Counting n data len m v

theorem finished_of_live {timer : Timer S} {n : ℤ}
    (hremoved : timer.removed = false)
    (htotal : if 0 < n then timer.totalTimes = n else timer.totalTimes ≤ 0)
    (times : ℕ) : timer.finished times = true ↔ 0 < n ∧ n ≤ times := by
  by_cases hn : 0 < n
  · rw [if_pos hn] at htotal
    simp [Timer.finished, hremoved, htotal]
  · rw [if_neg hn] at htotal
    simp [Timer.finished, hremoved, hn, not_lt.mpr htotal]

theorem Counting.keyStep {n : ℤ} {data : Option TimerData} {len m : ℕ}
    {k : TimerKey S} {v v' : KeyView S} {a : TimerAction S}
    (h : Counting n data len m v) (hstep : KeyStep k v a v') :
    (Counting n data len m v' ∧ v'.calls = v.calls) ∨
      (Counting n data len (m + 1) v' ∧
        v'.calls = v.calls ++ [⟨k, data, len, m + 1⟩]) := by
  cases hstep with
  | other => exact .inl ⟨h, rfl⟩
  | @called e timer hidle hentry hremoved =>
      right
      cases h with
      | waiting hidle' hentry' hremoved' hcarries htimes htotal hleft =>
          obtain rfl : _ = timer := Option.some.inj (hentry'.symm.trans hentry)
          obtain ⟨rfl, rfl⟩ := hcarries
          subst htimes
          refine ⟨.calling rfl rfl hremoved ⟨rfl, rfl⟩ rfl htotal ?_ (.inl rfl), rfl⟩
          intro hn
          have hlt := hleft hn
          push_cast
          omega
      | calling hcalling => simp [hcalling] at hidle
      | ended _ hentry' => simp [hentry'] at hentry
  | @returned timer times hcalling hentry =>
      left
      refine ⟨?_, rfl⟩
      cases h with
      | waiting hidle => simp [hidle] at hcalling
      | calling hcalling' hentry' hremoved hcarries htimes htotal hleft hheld =>
          obtain rfl : _ = timer := Option.some.inj (hentry'.symm.trans hentry)
          obtain rfl : times = _ := Option.some.inj (hcalling.symm.trans hcalling')
          have hfinished := finished_of_live hremoved htotal times
          by_cases hend : 0 < n ∧ n ≤ times
          · rw [if_pos (hfinished.mpr hend)]
            refine .ended rfl rfl hend.1 ?_
            have hle := hleft hend.1
            rcases hheld with rfl | ⟨-, hlt⟩
            · omega
            · have hlt := hlt hend.1
              omega
          · rw [if_neg fun h => hend (hfinished.mp h)]
            refine .waiting rfl rfl hremoved hcarries htimes htotal fun hn => ?_
            rcases hheld with rfl | ⟨rfl, -⟩
            · omega
            · simpa using hn
      | ended hidle => simp [hidle] at hcalling

def callsAfresh (k : TimerKey S) (data : Option TimerData) (len : ℕ) (m : ℕ) :
    List (TimerCall S) :=
  (List.range' 1 m).map fun times => ⟨k, data, len, times⟩

@[simp] theorem length_callsAfresh (k : TimerKey S) (data : Option TimerData)
    (len m : ℕ) : (callsAfresh k data len m).length = m := by
  simp [callsAfresh]

@[simp] theorem map_times_callsAfresh (k : TimerKey S)
    (data : Option TimerData) (len m : ℕ) :
    (callsAfresh k data len m).map (·.times) = List.range' 1 m := by
  rw [callsAfresh, List.map_map]
  exact List.map_id _

theorem Counting.le {n : ℤ} {data : Option TimerData} {len m : ℕ}
    {v : KeyView S} (h : Counting n data len m v) (hn : 0 < n) :
    (m : ℤ) ≤ n := by
  cases h with
  | waiting _ _ _ _ _ _ hleft => exact (hleft hn).le
  | calling _ _ _ _ _ _ hleft => exact hleft hn
  | ended _ _ _ hm => exact hm.le

variable [DecidableEq S]

def view (s : TimerRun S) (k : TimerKey S) : KeyView S where
  entry := s.axis.timerHashMap k
  inCallback := s.running.bind fun r => if r.1 = k then some r.2 else none
  calls := s.calls.filter fun call => call.key = k

theorem step_keyStep {s s' : TimerRun S} {a : TimerAction S} (h : s.Inv)
    (hstep : s.step a = some s') {k : TimerKey S} (hk : ¬ Touches k a) :
    KeyStep k (s.view k) a (s'.view k) := by
  cases step_steps h hstep with
  | @setTimer env sink timerId data len totalTimes axis' done hset hsets =>
      have hne : k ≠ ⟨sink, timerId⟩ := fun heq => hk heq.symm
      have hentry : axis'.timerHashMap k = s.axis.timerHashMap k := by
        cases hsets with
        | unchanged hok hsame => exact congrFun hsame k
        | failed hok hentry hremoved hremoved' hafter => simp [hafter, hne]
        | again env hok hentry hremoved hfilled hafter => simp [hafter, hne]
        | added env e hok hentry hfilled hafter => simp [hafter, hne]
      exact .of_eq (fun ha => nomatch ha) (by simp only [view, hentry])
  | @killTimer eventDel sink timerId axis' hok hafter =>
      have hne : k ≠ ⟨sink, timerId⟩ := fun heq => hk heq.symm
      have hentry : axis'.timerHashMap k = s.axis.timerHashMap k := by
        cases eventDel <;> simp [hafter, hne]
      exact .of_eq (fun ha => nomatch ha) (by simp only [view, hentry])
  | @onTimer e k' timer axis' hidle hentry hremoved hok hafter =>
      by_cases heq : k' = k
      · subst heq
        have hidle' : (s.view k').inCallback = none := by
          simp [view, hidle]
        have hcalled := KeyStep.called (k := k') (e := e) hidle' hentry hremoved
        simpa [view, hafter] using hcalled
      · exact .of_eq (fun ha => nomatch ha)
          (by simp [view, hafter, hidle, heq, Ne.symm heq])
  | @callbackReturns k' times timer axis' hrunning hentry hok hafter =>
      by_cases heq : k' = k
      · subst heq
        have hcalling : (s.view k').inCallback = some times := by
          simp [view, hrunning]
        have hreturned := KeyStep.returned (k := k') hcalling hentry
        have hentry' : axis'.timerHashMap k' =
            if timer.finished times then none else some timer := by
          rw [hafter]
          split_ifs
          · simp
          · exact hentry
        simpa only [view, hentry', Option.bind_none] using hreturned
      · have hentry' : axis'.timerHashMap k = s.axis.timerHashMap k := by
          rw [hafter]
          split_ifs
          · simp [Ne.symm heq]
          · rfl
        exact .of_eq (fun _ => by simp [view, hrunning, heq])
          (by simp [view, hentry', hrunning, heq])

/-- From this state on, until it is set or killed, the key's callbacks count from
one, each `carries` what it should, there are at most `n` of them where `n` is
positive, and the key exists exactly as long as there is one to come. -/
def FiresAfresh (k : TimerKey S) (n : ℤ) (carries : TimerCall S → Prop)
    (s : TimerRun S) : Prop :=
  ∀ as t, run step s as = some t → (∀ a ∈ as, ¬ Touches k a) →
    ∃ made, (t.view k).calls = (s.view k).calls ++ made ∧
      made.map (·.times) = List.range' 1 made.length ∧
      (∀ call ∈ made, carries call) ∧
      (0 < n → (made.length : ℤ) ≤ n) ∧
      ((t.view k).inCallback = none →
        (t.axis.timerExist k.sink k.timerId = true ↔
          (0 < n → (made.length : ℤ) < n)))

theorem run_inv {s t : TimerRun S} {as : List (TimerAction S)} (h : s.Inv)
    (hrun : run step s as = some t) : t.Inv :=
  inv_of_run (fun _ _ _ h hstep => Inv.step h hstep) h hrun

theorem run_counting {n : ℤ} {data : Option TimerData} {len m : ℕ}
    {k : TimerKey S} {s t : TimerRun S} {as : List (TimerAction S)}
    (hinv : s.Inv) (h : Counting n data len m (s.view k))
    (hrun : run step s as = some t) (has : ∀ a ∈ as, ¬ Touches k a) :
    ∃ j, Counting n data len (m + j) (t.view k) ∧
      (t.view k).calls = (s.view k).calls ++
        (List.range' (m + 1) j).map fun times => ⟨k, data, len, times⟩ := by
  induction as generalizing s m with
  | nil =>
      simp only [run, Option.some.injEq] at hrun
      subst hrun
      exact ⟨0, h, by simp⟩
  | cons a as ih =>
      simp only [run, Option.bind_eq_some_iff] at hrun
      obtain ⟨s', hstep, hrun⟩ := hrun
      rw [List.forall_mem_cons] at has
      have hview := step_keyStep hinv hstep has.1
      rcases h.keyStep hview with ⟨h', hcalls⟩ | ⟨h', hcalls⟩
      · obtain ⟨j, hj, hlater⟩ := ih (hinv.step hstep) h' hrun has.2
        exact ⟨j, hj, by rw [hlater, hcalls]⟩
      · obtain ⟨j, hj, hlater⟩ := ih (hinv.step hstep) h' hrun has.2
        refine ⟨j + 1, by rwa [Nat.add_assoc, Nat.add_comm 1] at hj, ?_⟩
        rw [hlater, hcalls, List.append_assoc, List.range'_succ]
        rfl

theorem Counting.exist_iff {n : ℤ} {data : Option TimerData} {len m : ℕ}
    {k : TimerKey S} {s : TimerRun S} (hinv : s.Inv)
    (h : Counting n data len m (s.view k))
    (hidle : (s.view k).inCallback = none) :
    s.axis.timerExist k.sink k.timerId = true ↔ (0 < n → (m : ℤ) < n) := by
  rw [hinv.axis.timerExist_iff k]
  cases h with
  | waiting _ hentry hremoved _ _ _ hleft =>
      exact iff_of_true ⟨_, hentry, hremoved⟩ hleft
  | calling hcalling => simp [hcalling] at hidle
  | ended _ hentry hn hm =>
      refine iff_of_false ?_ fun hlt => ?_
      · rintro ⟨timer, hentry', -⟩
        have hentry : s.axis.timerHashMap k = none := hentry
        simp [hentry] at hentry'
      · exact absurd (hlt hn) hm.not_lt

/-- The calls of a key that counts from one, wherever its run has come to. -/
theorem Counting.calls_run {n : ℤ} {data : Option TimerData} {len : ℕ}
    {k : TimerKey S} {s t : TimerRun S} {as : List (TimerAction S)}
    (hinv : s.Inv) (h : Counting n data len 0 (s.view k))
    (hrun : run step s as = some t) (has : ∀ a ∈ as, ¬ Touches k a) :
    ∃ m, Counting n data len m (t.view k) ∧
      (t.view k).calls = (s.view k).calls ++ callsAfresh k data len m := by
  obtain ⟨m, hm, hcalls⟩ := run_counting hinv h hrun has
  rw [Nat.zero_add] at hm hcalls
  exact ⟨m, hm, hcalls⟩

theorem Counting.firesAfresh {n : ℤ} {data : Option TimerData} {len : ℕ}
    {k : TimerKey S} {s : TimerRun S} (hinv : s.Inv)
    (h : Counting n data len 0 (s.view k)) {carries : TimerCall S → Prop}
    (hcarries : ∀ times, carries ⟨k, data, len, times⟩) :
    FiresAfresh k n carries s := by
  intro as t hrun has
  obtain ⟨m, hm, hcalls⟩ := h.calls_run hinv hrun has
  refine ⟨callsAfresh k data len m, hcalls, ?_, ?_, ?_, ?_⟩
  · rw [map_times_callsAfresh, length_callsAfresh]
  · intro call hcall
    obtain ⟨times, -, rfl⟩ := List.mem_map.mp hcall
    exact hcarries times
  · rw [length_callsAfresh]
    exact hm.le
  · rw [length_callsAfresh]
    exact hm.exist_iff (run_inv hinv hrun)

/-- The entry that `SetTimer` starts from. -/
def oldTimer (s : TimerRun S) (k : TimerKey S) : Timer S :=
  (s.axis.timerHashMap k).getD (Timer.new S)

/-- A successful `SetTimer` resets the counters for a positive count only and the
data for a block that is not empty only. -/
theorem view_setTimer {s s' : TimerRun S} (h : s.Inv) {env : SetTimerEnv}
    {sink : Option S} {timerId : ℤ} {data : Option DataPtr} {len : ℕ} {n : ℤ}
    (hstep : s.step (.setTimer env sink timerId data len n) = some s')
    (hdone : (s.axis.setTimer env sink timerId data len n).2 = true) :
    ∃ timer', (s'.view ⟨sink, timerId⟩).entry = some timer' ∧
      timer'.removed = false ∧
      timer'.totalTimes =
        (if 0 < n then n else (s.oldTimer ⟨sink, timerId⟩).totalTimes) ∧
      timer'.times =
        (if 0 < n then 0 else (s.oldTimer ⟨sink, timerId⟩).times) ∧
      ((∃ ptr, data = some ptr ∧ 0 < len ∧
          timer'.data = some (.copy (ptr.bytes.take len)) ∧ timer'.len = len) ∨
        ((data = none ∨ len = 0) ∧
          timer'.data = (s.oldTimer ⟨sink, timerId⟩).data ∧
          timer'.len = (s.oldTimer ⟨sink, timerId⟩).len)) ∧
      (s'.view ⟨sink, timerId⟩).inCallback =
        (s.view ⟨sink, timerId⟩).inCallback ∧
      (s'.view ⟨sink, timerId⟩).calls = (s.view ⟨sink, timerId⟩).calls := by
  cases step_steps h hstep with
  | @setTimer env sink timerId data len totalTimes axis' done hset hsets =>
      rw [hset] at hdone
      obtain rfl : done = true := hdone
      cases hsets with
      | @again _ timer env hok hentry hremoved hfilled hafter =>
          have hold : s.oldTimer ⟨sink, timerId⟩ = timer := by
            simp [oldTimer, hentry]
          have hkeeps := (timer.setTotalTimes n).fillAsyncData_keeps
            env.allocData data len
          have hdata := (timer.setTotalTimes n).fillAsyncData_data hfilled
          obtain ⟨-, htotal, htimes, -⟩ := hkeeps
          rw [Timer.setTotalTimes_totalTimes] at htotal
          rw [Timer.setTotalTimes_times] at htimes
          rw [hold]
          refine ⟨_, (congrFun hafter _).trans (Function.update_self ..), rfl,
            htotal, htimes, ?_, rfl, rfl⟩
          rcases hdata with hstored | ⟨hnone, hsame⟩
          · exact .inl hstored
          · exact .inr ⟨hnone, by simp [hsame], by simp [hsame]⟩
      | @added _ env e hok hentry hfilled hafter =>
          have hold : s.oldTimer ⟨sink, timerId⟩ = Timer.new S := by
            simp [oldTimer, hentry]
          have hkeeps := (Timer.new S).fillAsyncData_keeps env.allocData data len
          have hdata := (Timer.new S).fillAsyncData_data hfilled
          obtain ⟨-, htotal, htimes, hremoved⟩ := hkeeps
          rw [hold]
          refine ⟨_, (congrFun hafter _).trans (Function.update_self ..), ?_, ?_,
            ?_, ?_, rfl, rfl⟩
          · simp only [Timer.setTotalTimes_removed, hremoved]
            rfl
          · simp only [Timer.setTotalTimes_totalTimes, htotal]
          · simp only [Timer.setTotalTimes_times, htimes]
          · simp only [Timer.setTotalTimes_data, Timer.setTotalTimes_len]
            rcases hdata with hstored | ⟨hnone, hsame⟩
            · exact .inl hstored
            · exact .inr ⟨hnone, by simp [hsame], by simp [hsame]⟩

theorem step_onTimer {s : TimerRun S} (h : s.Inv) (hrunning : s.running = none)
    {k : TimerKey S} {timer : Timer S} (hentry : (s.view k).entry = some timer)
    (hremoved : timer.removed = false) :
    ∃ e t, s.step (.onTimer e) = some t ∧ t.view k =
      { entry := some { timer with times := timer.times + 1 }
        inCallback := some (timer.times + 1)
        calls := (s.view k).calls ++
          [⟨k, timer.data, timer.len, timer.times + 1⟩] } := by
  obtain ⟨e, axis', call, hcall⟩ := h.axis.callTimer_isSome hentry hremoved
  obtain ⟨timer', hentry', -, rfl, hafter, -⟩ := h.axis.callTimer hcall
  obtain rfl : timer = timer' := Option.some.inj (hentry.symm.trans hentry')
  refine ⟨e,
    { s with
      axis := axis'
      running := some (k, timer.times + 1)
      calls := s.calls ++ [⟨k, timer.data, timer.len, timer.times + 1⟩] },
    ?_, ?_⟩
  · simp only [step, hrunning, hcall, Option.map_some]
  · simp [view, hafter]

theorem step_callbackReturns {s : TimerRun S} (h : s.Inv)
    (hrunning : s.running ≠ none) :
    ∃ t, s.step .callbackReturns = some t ∧ t.running = none := by
  cases hcalling : s.running with
  | none => exact absurd hcalling hrunning
  | some r =>
      obtain ⟨k, times⟩ := r
      obtain ⟨timer, hentry⟩ :=
        Option.isSome_iff_exists.mp (h.running k times hcalling)
      obtain ⟨axis', hfinish, -, -⟩ := h.axis.finishTimer hentry times
      refine ⟨{ s with axis := axis', running := none }, ?_, rfl⟩
      simp only [step, hcalling, hfinish, Option.map_some]

/-- The loop can call back every live key whose callback is not running, at the
latest when the callback that is running has returned. -/
theorem exists_call {s : TimerRun S} (h : s.Inv) {k : TimerKey S}
    {timer : Timer S} (hentry : (s.view k).entry = some timer)
    (hremoved : timer.removed = false) (hidle : (s.view k).inCallback = none) :
    ∃ as t, run step s as = some t ∧ (∀ a ∈ as, ¬ Touches k a) ∧
      t.view k =
        { entry := some { timer with times := timer.times + 1 }
          inCallback := some (timer.times + 1)
          calls := (s.view k).calls ++
            [⟨k, timer.data, timer.len, timer.times + 1⟩] } := by
  by_cases hrunning : s.running = none
  · obtain ⟨e, t, hstep, hview⟩ := step_onTimer h hrunning hentry hremoved
    refine ⟨[.onTimer e], t, ?_, ?_, hview⟩
    · simp only [run, hstep, Option.bind_some]
    · simp [Touches]
  · obtain ⟨s₁, hreturns, hrunning₁⟩ := step_callbackReturns h hrunning
    have hsame : s₁.view k = s.view k := by
      have hkey := step_keyStep h hreturns (k := k) fun hk => hk
      generalize hview₁ : s₁.view k = v₁ at hkey
      cases hkey with
      | other => rfl
      | returned hcalling => simp [hidle] at hcalling
    rw [← hsame] at hentry
    obtain ⟨e, t, hstep, hview⟩ :=
      step_onTimer (h.step hreturns) hrunning₁ hentry hremoved
    refine ⟨[.callbackReturns, .onTimer e], t, ?_, ?_, hsame ▸ hview⟩
    · simp only [run, hreturns, hstep, Option.bind_some]
    · simp [Touches]

theorem exists_return {s : TimerRun S} (h : s.Inv) {k : TimerKey S}
    {timer : Timer S} {times : ℕ} (hentry : (s.view k).entry = some timer)
    (hcalling : (s.view k).inCallback = some times) :
    ∃ t, run step s [.callbackReturns] = some t ∧ t.view k =
      { entry := if timer.finished times then none else some timer
        inCallback := none
        calls := (s.view k).calls } := by
  have hrunning : s.running ≠ none := by
    intro hnone
    simp [view, hnone] at hcalling
  obtain ⟨t, hreturns, -⟩ := step_callbackReturns h hrunning
  refine ⟨t, by simp only [run, hreturns, Option.bind_some], ?_⟩
  have hkey := step_keyStep h hreturns (k := k) fun hk => hk
  generalize hview : t.view k = v at hkey
  cases hkey with
  | other hother => simp [hother rfl] at hcalling
  | @returned timer' times' hcalling' hentry' =>
      obtain rfl : timer = timer' := Option.some.inj (hentry.symm.trans hentry')
      obtain rfl : times = times' :=
        Option.some.inj (hcalling.symm.trans hcalling')
      rfl

theorem exists_round {s : TimerRun S} (h : s.Inv) {k : TimerKey S}
    {timer : Timer S} (hentry : (s.view k).entry = some timer)
    (hremoved : timer.removed = false) (hidle : (s.view k).inCallback = none) :
    ∃ as t, run step s as = some t ∧ (∀ a ∈ as, ¬ Touches k a) ∧
      (t.view k).inCallback = none ∧
      (t.view k).entry =
        if 0 < timer.totalTimes ∧ timer.totalTimes ≤ timer.times + 1 then none
        else some { timer with times := timer.times + 1 } := by
  obtain ⟨as, t₁, hrun₁, has, hview₁⟩ := exists_call h hentry hremoved hidle
  obtain ⟨t, hrun, hview⟩ :=
    exists_return (run_inv h hrun₁) (congrArg KeyView.entry hview₁)
      (congrArg KeyView.inCallback hview₁)
  refine ⟨as ++ [TimerAction.callbackReturns], t, ?_, ?_, by rw [hview], ?_⟩
  · rw [run_append, hrun₁, Option.bind_some, hrun]
  · intro a ha
    rcases List.mem_append.mp ha with ha | ha
    · exact has a ha
    · rw [List.mem_singleton.mp ha]
      exact fun hk => hk
  · rw [hview]
    simp [Timer.finished, hremoved]

theorem exists_exhausted {s : TimerRun S} (h : s.Inv) {k : TimerKey S}
    {timer : Timer S} (hentry : (s.view k).entry = some timer)
    (hremoved : timer.removed = false) (hidle : (s.view k).inCallback = none)
    (htotal : 0 < timer.totalTimes) :
    ∃ as t, run step s as = some t ∧ (∀ a ∈ as, ¬ Touches k a) ∧
      (t.view k).inCallback = none ∧ (t.view k).entry = none := by
  induction hleft : (timer.totalTimes - timer.times).toNat using
    Nat.strong_induction_on generalizing s timer with
  | h left ih =>
      obtain ⟨as, t, hrun, has, hidle', hentry'⟩ :=
        exists_round h hentry hremoved hidle
      by_cases hlast : timer.totalTimes ≤ timer.times + 1
      · rw [if_pos ⟨htotal, hlast⟩] at hentry'
        exact ⟨as, t, hrun, has, hidle', hentry'⟩
      · rw [if_neg fun hend => hlast hend.2] at hentry'
        have hless : (timer.totalTimes - (timer.times + 1 : ℕ)).toNat < left := by
          push_cast
          omega
        obtain ⟨bs, u, hrun', hbs, hgone⟩ :=
          ih _ hless (run_inv h hrun) hentry' hremoved hidle' htotal rfl
        refine ⟨as ++ bs, u, ?_, ?_, hgone⟩
        · rw [run_append, hrun, Option.bind_some, hrun']
        · intro a ha
          rcases List.mem_append.mp ha with ha | ha
          · exact has a ha
          · exact hbs a ha

/-- What the callbacks of a key set with these arguments should carry. -/
def given (data : Option DataPtr) (len : ℕ) : Option TimerData :=
  data.map fun ptr =>
    if len = 0 then .object ptr.addr else .copy (ptr.bytes.take len)

/-- `SetTimer` with these arguments writes every field of the entry that still
differs from what a new one should hold. -/
def Overwrites (timer : Timer S) (data : Option DataPtr) (len : ℕ) (n : ℤ) :
    Prop :=
  (0 < n ∨ timer.times = 0 ∧ timer.totalTimes ≤ 0) ∧
    (data ≠ none ∧ 0 < len ∨ data = none ∧ len = 0 ∧ timer.data = none)

omit [DecidableEq S] in
theorem oldTimer_dataOk {s : TimerRun S} (h : s.Inv) (k : TimerKey S) :
    (s.oldTimer k).DataOk := by
  cases hentry : s.axis.timerHashMap k with
  | none =>
      rw [oldTimer, hentry]
      exact .inl ⟨rfl, rfl⟩
  | some timer =>
      rw [oldTimer, hentry]
      exact h.axis.data k timer hentry

theorem counting_of_overwrites {s s' : TimerRun S} (h : s.Inv)
    {env : SetTimerEnv} {sink : Option S} {timerId : ℤ}
    {data : Option DataPtr} {len : ℕ} {n : ℤ}
    (hidle : (s.view ⟨sink, timerId⟩).inCallback = none)
    (hstep : s.step (.setTimer env sink timerId data len n) = some s')
    (hdone : (s.axis.setTimer env sink timerId data len n).2 = true)
    (hover : Overwrites (s.oldTimer ⟨sink, timerId⟩) data len n) :
    Counting n (given data len) len 0 (s'.view ⟨sink, timerId⟩) := by
  obtain ⟨timer', hentry, hremoved, htotal, htimes, hdata, hcallback, -⟩ :=
    view_setTimer h hstep hdone
  have hold := oldTimer_dataOk h ⟨sink, timerId⟩
  obtain ⟨hcount, hblock⟩ := hover
  have hcarries : timer'.data = given data len ∧ timer'.len = len := by
    rcases hdata with ⟨ptr, rfl, hpos, hstored, hlen⟩ | ⟨hnone, hkept, hlen⟩
    · exact ⟨by simp [given, hstored, hpos.ne'], hlen⟩
    · rcases hblock with ⟨hsome, hpos⟩ | ⟨rfl, rfl, hno⟩
      · rcases hnone with hnone | hzero
        · exact absurd hnone hsome
        · omega
      · rcases hold with ⟨-, hzero⟩ | ⟨bytes, hbytes, -⟩
        · exact ⟨by rw [hkept, hno]; rfl, by rw [hlen, hzero]⟩
        · simp [hno] at hbytes
  refine .waiting (hcallback.trans hidle) hentry hremoved hcarries ?_ ?_ ?_
  · rw [htimes]
    split_ifs with hn
    · rfl
    · rcases hcount with hn' | ⟨hzero, -⟩
      · exact absurd hn' hn
      · exact hzero
  · split_ifs with hn
    · rw [htotal, if_pos hn]
    · rcases hcount with hn' | ⟨-, hno⟩
      · exact absurd hn' hn
      · rwa [htotal, if_neg hn]
  · intro hn
    exact hn

/-- **Setting a key afresh.**  After a successful `SetTimer` of a key whose
callback is not running, its callbacks count from one, carry the new data and are
limited by the new count exactly when the call overwrites the old entry. -/
theorem firesAfresh_iff_overwrites {s s' : TimerRun S} (h : s.Inv)
    {env : SetTimerEnv} {sink : Option S} {timerId : ℤ}
    {data : Option DataPtr} {len : ℕ} {n : ℤ}
    (hidle : (s.view ⟨sink, timerId⟩).inCallback = none)
    (hstep : s.step (.setTimer env sink timerId data len n) = some s')
    (hdone : (s.axis.setTimer env sink timerId data len n).2 = true) :
    FiresAfresh ⟨sink, timerId⟩ n
        (fun call => call.data = given data len ∧ call.len = len) s' ↔
      Overwrites (s.oldTimer ⟨sink, timerId⟩) data len n := by
  have h' := h.step hstep
  constructor
  · intro hfires
    obtain ⟨timer', hentry, hremoved, htotal, htimes, hdata, hcallback, -⟩ :=
      view_setTimer h hstep hdone
    rw [hidle] at hcallback
    have hold := oldTimer_dataOk h ⟨sink, timerId⟩
    -- the first call shows the counter and the data the entry was left with
    have hfirst : timer'.times = 0 ∧ timer'.data = given data len ∧
        timer'.len = len := by
      obtain ⟨as, t, hrun, has, hview⟩ :=
        exists_call h' hentry hremoved hcallback
      obtain ⟨made, hcalls, hcounts, hcarries, -, -⟩ := hfires as t hrun has
      rw [hview] at hcalls
      obtain rfl := List.append_cancel_left hcalls
      have hone : timer'.times + 1 = 1 := by simpa using hcounts
      have hcarry := hcarries _ (List.mem_singleton_self _)
      exact ⟨by omega, hcarry⟩
    obtain ⟨hzero, hgiven, hlen⟩ := hfirst
    constructor
    · by_contra hstale
      obtain ⟨hn, hlimit⟩ := not_or.mp hstale
      rw [if_neg hn] at htimes htotal
      rw [hzero] at htimes
      have hpos : 0 < timer'.totalTimes := by
        rw [htotal]
        exact not_le.mp fun hle => hlimit ⟨htimes.symm, hle⟩
      -- the old limit is still in force: after its last call the key is gone
      obtain ⟨as, t, hrun, has, hidle', hgone⟩ :=
        exists_exhausted h' hentry hremoved hcallback hpos
      obtain ⟨made, -, -, -, -, hexist⟩ := hfires as t hrun has
      have hlive := (hexist hidle').mpr fun hn' => absurd hn' hn
      obtain ⟨timer, hentry', -⟩ :=
        ((run_inv h' hrun).axis.timerExist_iff ⟨sink, timerId⟩).mp hlive
      have hgone : t.axis.timerHashMap ⟨sink, timerId⟩ = none := hgone
      rw [hgone] at hentry'
      cases hentry'
    · rcases hdata with ⟨ptr, rfl, hpos, -, -⟩ | ⟨hnone, hkept, hkeptLen⟩
      · exact .inl ⟨by simp, hpos⟩
      · right
        rw [hkept] at hgiven
        rw [hkeptLen] at hlen
        cases data with
        | none =>
            have hno : (s.oldTimer ⟨sink, timerId⟩).data = none := hgiven
            rcases hold with ⟨-, hzero'⟩ | ⟨bytes, hbytes, -⟩
            · exact ⟨rfl, hlen.symm.trans hzero', hno⟩
            · simp [hno] at hbytes
        | some ptr =>
            obtain rfl : len = 0 := by simpa using hnone
            have hobject : (s.oldTimer ⟨sink, timerId⟩).data =
                some (.object ptr.addr) := hgiven
            rcases hold with ⟨hno, -⟩ | ⟨bytes, hbytes, -⟩
            · simp [hno] at hobject
            · simp [hbytes] at hobject
  · intro hover
    refine (counting_of_overwrites h hidle hstep hdone hover).firesAfresh h' ?_
    exact fun times => ⟨rfl, rfl⟩

/-- Two keys' runs make the same calls, as far as both have come, and after the
same number of calls both exist or neither does. -/
def SameCalls (k : TimerKey S) (s u : TimerRun S) : Prop :=
  ∀ as t bs v, run step s as = some t → (∀ a ∈ as, ¬ Touches k a) →
    run step u bs = some v → (∀ b ∈ bs, ¬ Touches k b) →
    ∀ made made', (t.view k).calls = (s.view k).calls ++ made →
      (v.view k).calls = (u.view k).calls ++ made' →
      (made <+: made' ∨ made' <+: made) ∧
      (made.length = made'.length → (t.view k).inCallback = none →
        (v.view k).inCallback = none →
        t.axis.timerExist k.sink k.timerId = v.axis.timerExist k.sink k.timerId)

/-- A key behaves as one that was set with these arguments in a table that has no
entry for it, and as the arguments say. -/
def LikeFresh (k : TimerKey S) (data : Option DataPtr) (len : ℕ) (n : ℤ)
    (s : TimerRun S) : Prop :=
  FiresAfresh k n (fun call => call.data = given data len ∧ call.len = len) s ∧
    ∀ as env u u', run step init as = some u → u.axis.timerHashMap k = none →
      u.step (.setTimer env k.sink k.timerId data len n) = some u' →
      (u.axis.setTimer env k.sink k.timerId data len n).2 = true →
      SameCalls k s u'

omit [DecidableEq S] in
theorem callsAfresh_of_le (k : TimerKey S) (data : Option TimerData) (len : ℕ)
    {m m' : ℕ} (h : m ≤ m') :
    callsAfresh k data len m <+: callsAfresh k data len m' := by
  obtain ⟨j, rfl⟩ := Nat.exists_eq_add_of_le h
  rw [callsAfresh, callsAfresh, ← List.range'_append_1, List.map_append]
  exact List.prefix_append _ _

theorem Counting.sameCalls {n : ℤ} {data : Option TimerData} {len : ℕ}
    {k : TimerKey S} {s u : TimerRun S} (hs : s.Inv) (hu : u.Inv)
    (h : Counting n data len 0 (s.view k))
    (h' : Counting n data len 0 (u.view k)) : SameCalls k s u := by
  intro as t bs v hrun has hrun' hbs made made' hmade hmade'
  obtain ⟨m, hm, hcalls⟩ := h.calls_run hs hrun has
  obtain ⟨m', hm', hcalls'⟩ := h'.calls_run hu hrun' hbs
  obtain rfl : made = callsAfresh k data len m :=
    List.append_cancel_left (hmade.symm.trans hcalls)
  obtain rfl : made' = callsAfresh k data len m' :=
    List.append_cancel_left (hmade'.symm.trans hcalls')
  constructor
  · rcases le_total m m' with hle | hle
    · exact .inl (callsAfresh_of_le k data len hle)
    · exact .inr (callsAfresh_of_le k data len hle)
  · intro hlength hidle hidle'
    obtain rfl : m = m' := by simpa using hlength
    rw [Bool.eq_iff_iff, hm.exist_iff (run_inv hs hrun) hidle,
      hm'.exist_iff (run_inv hu hrun') hidle']

/-- **A key set again.**  A key whose callback is not running and that is set with success
behaves as a new one exactly when the call overwrites what the entry held. -/
theorem likeFresh_iff_overwrites {s s' : TimerRun S} (h : s.Inv) {env : SetTimerEnv}
    {sink : Option S} {timerId : ℤ} {data : Option DataPtr} {len : ℕ} {n : ℤ}
    (hidle : (s.view ⟨sink, timerId⟩).inCallback = none)
    (hstep : s.step (.setTimer env sink timerId data len n) = some s')
    (hdone : (s.axis.setTimer env sink timerId data len n).2 = true) :
    LikeFresh ⟨sink, timerId⟩ data len n s' ↔
      Overwrites (s.oldTimer ⟨sink, timerId⟩) data len n := by
  have hiff := firesAfresh_iff_overwrites h hidle hstep hdone
  constructor
  · intro hfresh
    exact hiff.mp hfresh.1
  · intro hover
    refine ⟨hiff.mpr hover, ?_⟩
    intro cs env' u u' hrun' hnone hstep' hdone'
    have hu : u.Inv := run_inv Inv.init hrun'
    have hidle' : (u.view ⟨sink, timerId⟩).inCallback = none := by
      cases hrunning : u.running with
      | none => simp [view, hrunning]
      | some r =>
          have hheld := hu.running r.1 r.2 hrunning
          have hne : r.1 ≠ ⟨sink, timerId⟩ := by
            intro heq
            simp [heq, hnone] at hheld
          simp [view, hrunning, hne]
    have hnew : Overwrites (u.oldTimer ⟨sink, timerId⟩) data len n := by
      rw [oldTimer, hnone, Option.getD_none]
      refine ⟨.inr ⟨rfl, by norm_num [Timer.new]⟩, ?_⟩
      rcases hover.2 with hblock | ⟨hdata, hlen, -⟩
      · exact .inl hblock
      · exact .inr ⟨hdata, hlen, rfl⟩
    exact (counting_of_overwrites h hidle hstep hdone hover).sameCalls
      (h.step hstep) (hu.step hstep')
      (counting_of_overwrites hu hidle' hstep' hdone' hnew)

def allSucceed : SetTimerEnv := ⟨true, true, true, true⟩

/-- **A key set again in its own callback.**  Where the key's callback is running,
counted `times`, a successful `SetTimer` with a positive count is followed by that
many calls exactly when the count is above `times`. -/
theorem firesAfresh_in_callback_iff (as : List (TimerAction S))
    (env : SetTimerEnv) (data : Option DataPtr) (len : ℕ)
    {s s' : TimerRun S} {sink : Option S} {timerId : ℤ} {times : ℕ} {n : ℤ}
    (hrun : run step init as = some s)
    (hcalling : s.running = some (⟨sink, timerId⟩, times)) (hn : 0 < n)
    (hstep : s.step (.setTimer env sink timerId data len n) = some s')
    (hdone : (s.axis.setTimer env sink timerId data len n).2 = true) :
    FiresAfresh ⟨sink, timerId⟩ n (fun _ => True) s' ↔ times < n := by
  have h : s.Inv := run_inv Inv.init hrun
  have h' := h.step hstep
  obtain ⟨timer', hentry, hremoved, htotal, htimes, -, hcallback, -⟩ :=
    view_setTimer h hstep hdone
  rw [if_pos hn] at htotal htimes
  have hcalling' : (s'.view ⟨sink, timerId⟩).inCallback = some times := by
    rw [hcallback]
    simp [view, hcalling]
  constructor
  · intro hfires
    by_contra hle
    obtain ⟨t, hrun', hview⟩ := exists_return h' hentry hcalling'
    have hfinished : timer'.finished times = true := by
      simp [Timer.finished, htotal, hn, not_lt.mp hle]
    rw [if_pos hfinished] at hview
    obtain ⟨made, hcalls, -, -, -, hexist⟩ :=
      hfires [.callbackReturns] t hrun' (by simp [Touches])
    rw [hview] at hcalls hexist
    obtain rfl : made = [] := List.self_eq_append_right.mp hcalls
    obtain ⟨timer, hentry', -⟩ := ((run_inv h' hrun').axis.timerExist_iff
      ⟨sink, timerId⟩).mp ((hexist rfl).mpr fun hn => hn)
    have hgone : t.axis.timerHashMap ⟨sink, timerId⟩ = none :=
      congrArg KeyView.entry hview
    rw [hgone] at hentry'
    cases hentry'
  · intro hlt
    have hcounting : Counting n timer'.data timer'.len 0
        (s'.view ⟨sink, timerId⟩) := by
      refine .calling hcalling' hentry hremoved ⟨rfl, rfl⟩ htimes ?_ ?_ ?_
      · rw [if_pos hn, htotal]
      · intro _
        exact hn.le
      · exact .inr ⟨rfl, fun _ => hlt⟩
    exact hcounting.firesAfresh h' fun _ => trivial

/-- Set with a limit of five in its first callback, it is called five more times. -/
theorem firesAfresh_in_first_callback :
    ∃ s' : TimerRun ℕ,
      run step init [.setTimer allSucceed (some 0) 1 none 0 (-1), .onTimer 0,
        .killTimer true (some 0) 1,
        .setTimer allSucceed (some 0) 1 none 0 5] = some s' ∧
      FiresAfresh ⟨some 0, 1⟩ 5 (fun _ => True) s' := by
  refine ⟨_, rfl, ?_⟩
  have hiff : FiresAfresh ⟨some 0, 1⟩ 5 (fun _ => True) _ ↔ _ :=
    firesAfresh_in_callback_iff [.setTimer allSucceed (some 0) 1 none 0 (-1),
      .onTimer 0, .killTimer true (some 0) 1] allSucceed none 0 rfl rfl
        (by norm_num) rfl rfl
  exact hiff.mpr (by norm_num [Timer.new])

/-- Set with a limit of one in its first callback, it is gone when that returns. -/
theorem firesAfresh_not_in_first_callback :
    ∃ s' t : TimerRun ℕ,
      run step init [.setTimer allSucceed (some 0) 1 none 0 (-1), .onTimer 0,
        .killTimer true (some 0) 1,
        .setTimer allSucceed (some 0) 1 none 0 1] = some s' ∧
      s'.step .callbackReturns = some t ∧ t.calls.map (·.times) = [1] ∧
      t.axis.timerExist (some 0) 1 = false ∧
      ¬ FiresAfresh ⟨some 0, 1⟩ 1 (fun _ => True) s' := by
  refine ⟨_, _, rfl, rfl, rfl, rfl, fun h => ?_⟩
  obtain ⟨made, hcalls, -, -, -, hexist⟩ :=
    h [.callbackReturns] _ rfl (by simp [Touches])
  have hmade : [⟨⟨some 0, 1⟩, none, 0, 1⟩] =
      [⟨⟨some 0, 1⟩, none, 0, 1⟩] ++ made := hcalls
  obtain rfl : made = [] := List.self_eq_append_right.mp hmade
  have hlive := (hexist rfl).mpr fun _ => by norm_num
  cases hlive

end TimerRun

end CommonComponent
