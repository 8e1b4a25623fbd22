import CommonComponent.CopyStore
import CommonComponent.TimerAxisRun

/-!
# The data of timers

`FillAsyncData` and `ReleaseAsyncData` over a memory, beside the table of timers: every
entry has a pointer and a length, and a callback is given these two.

The callers change and free what is theirs at any time; what they are given in a callback
they only read.  `none` is undefined behaviour: `memcpy` from memory that is gone.
-/

namespace CommonComponent

open CopyStore

/-- A timer table with the data of its entries. -/
structure TimerWorld (S : Type*) where
  run : TimerRun S
  store : Store (TimerKey S) UInt8

inductive TimerWorldAction (S : Type*) where
  | setTimer (env : SetTimerEnv) (sink : Option S) (timerId : ℤ)
      (data : Option Addr) (len : ℕ) (totalTimes : ℤ)
  | killTimer (eventDel : Bool) (sink : Option S) (timerId : ℤ)
  | onTimer (e : ℕ)
  | callbackReturns
  | clients (cells : ℕ → Option UInt8)
  | finalize

namespace TimerAxis

variable {S : Type*}

/-- What `Finalize` does about the event of an entry. -/
def finalizeTimer (axis : TimerAxis S) (k : TimerKey S) : TimerAxis S :=
  match (axis.timerHashMap k).bind (·.event) with
  | none => axis
  | some e => axis.eventFree e

/-- `Finalize`; the order of the hash map does not matter. -/
def finalize (axis : TimerAxis S) (keys : List (TimerKey S)) : TimerAxis S :=
  { keys.foldl finalizeTimer axis with timerHashMap := fun _ => none }

@[simp] theorem finalizeTimer_timerHashMap (axis : TimerAxis S) (k : TimerKey S) :
    (axis.finalizeTimer k).timerHashMap = axis.timerHashMap := by
  unfold finalizeTimer
  split <;> rfl

theorem foldl_finalizeTimer_events (keys : List (TimerKey S)) (axis : TimerAxis S) (e : ℕ) :
    (keys.foldl finalizeTimer axis).events e = axis.events e ∨
      (keys.foldl finalizeTimer axis).events e = none := by
  induction keys generalizing axis with
  | nil => exact .inl rfl
  | cons k keys ih =>
      rw [List.foldl_cons]
      rcases ih (axis.finalizeTimer k) with hsame | hnone
      · rw [hsame]
        unfold finalizeTimer
        split
        · exact .inl rfl
        next e' _ =>
          by_cases heq : e = e'
          · exact .inr (by simp [eventFree, heq])
          · exact .inl (by simp [eventFree, heq])
      · exact .inr hnone

theorem foldl_finalizeTimer_freed {keys : List (TimerKey S)} {axis : TimerAxis S}
    {k : TimerKey S} (hk : k ∈ keys) {e : ℕ}
    (he : (axis.timerHashMap k).bind (·.event) = some e) :
    (keys.foldl finalizeTimer axis).events e = none := by
  induction keys generalizing axis with
  | nil => cases hk
  | cons k' keys ih =>
      rw [List.foldl_cons]
      rcases List.mem_cons.mp hk with rfl | hk
      · have hfreed : (axis.finalizeTimer k).events e = none := by
          simp [finalizeTimer, he, eventFree]
        rcases foldl_finalizeTimer_events keys (axis.finalizeTimer k) e with hsame | hnone
        · rw [hsame, hfreed]
        · exact hnone
      · exact ih hk (by rwa [finalizeTimer_timerHashMap])

/-- `Finalize` leaves no event behind. -/
theorem Ok.finalize {axis : TimerAxis S} (h : axis.Ok) {keys : List (TimerKey S)}
    (hkeys : ∀ k, (axis.timerHashMap k).isSome → k ∈ keys) : (axis.finalize keys).Ok := by
  have hevents : ∀ e, (axis.finalize keys).events e = none := by
    intro e
    rcases foldl_finalizeTimer_events keys axis e with hsame | hnone
    · cases hevent : axis.events e with
      | none => exact hsame.trans hevent
      | some event =>
          obtain ⟨timer, hentry, he⟩ := h.owned e event hevent
          refine foldl_finalizeTimer_freed (hkeys event.arg (by rw [hentry]; rfl)) ?_
          rw [hentry, Option.bind_some, he]
    · exact hnone
  refine ⟨?_, ?_, ?_, ?_, fun e _ => hevents e⟩
  · intro k timer hentry
    cases hentry
  · intro k timer hentry
    cases hentry
  · intro k timer hentry
    cases hentry
  · intro e event hevent
    rw [hevents e] at hevent
    cases hevent

end TimerAxis

namespace TimerWorld

open LabelledRun

variable {S : Type*}

def releaseAsyncData (m : Memory UInt8) (timer : Slot) : Memory UInt8 × Slot :=
  m.release timer

def fillAsyncData (m : Memory UInt8) (timer : Slot) (allocData : Bool)
    (data : Option Addr) (len : ℕ) : Option (Memory UInt8 × Slot × Bool) :=
  if data = none ∨ len < 1 then some (m, timer, true)
  else if len = 0 then
    -- an object pointer; the test before it has caught this length
    some (m, ⟨data, 0⟩, true)
  else
    let (m, timer) := releaseAsyncData m timer
    if allocData then (m.copy data len).map fun (m, timer) => (m, timer, true)
    else some (m, { timer with data := none }, false)

/-- What the table is told of the data. -/
def dataPtr (m : Memory UInt8) (data : Option Addr) (len : ℕ) : Option DataPtr :=
  data.map fun a => ⟨a.toNat, (m.read data len).getD []⟩

def init : TimerWorld S where
  run := .init
  store := .init

variable [DecidableEq S]

/-- The statements of `SetTimer` that deal with the data; `done` is what it returns in the
end.  An entry that was added is erased where it fails, and its data is released. -/
def setTimerData (s : TimerWorld S) (env : SetTimerEnv) (sink : Option S) (timerId : ℤ)
    (data : Option Addr) (len : ℕ) (done : Bool) : Option (Store (TimerKey S) UInt8) :=
  match sink with
  | none => some s.store
  | some _ =>
      match s.run.axis.timerHashMap ⟨sink, timerId⟩ with
      | some timer =>
          if !timer.removed then some s.store
          else
            (fillAsyncData s.store.memory (s.store.slot ⟨sink, timerId⟩) env.allocData
              data len).map fun (m, slot, _) => s.store.put ⟨sink, timerId⟩ m slot
      | none =>
          (fillAsyncData s.store.memory .empty env.allocData data len).map
            fun (m, slot, _) =>
              if done then s.store.put ⟨sink, timerId⟩ m slot else s.store.discard m slot

def setTimer (s : TimerWorld S) (env : SetTimerEnv) (sink : Option S) (timerId : ℤ)
    (data : Option Addr) (len : ℕ) (totalTimes : ℤ) : Option (TimerWorld S × Bool) :=
  let ptr := dataPtr s.store.memory data len
  let done := (s.run.axis.setTimer env sink timerId ptr len totalTimes).2
  (s.setTimerData env sink timerId data len done).bind fun store =>
    (s.run.step (.setTimer env sink timerId ptr len totalTimes)).map fun run =>
      (⟨run, store⟩, done)

def step (s : TimerWorld S) : TimerWorldAction S → Option (TimerWorld S)
  | .setTimer env sink timerId data len totalTimes =>
      (s.setTimer env sink timerId data len totalTimes).map Prod.fst
  | .killTimer eventDel sink timerId =>
      (s.run.step (.killTimer eventDel sink timerId)).map fun run => { s with run := run }
  | .onTimer e =>
      (s.run.axis.callTimer e).bind fun (_, k, _) =>
        (s.run.step (.onTimer e)).map fun run => ⟨run, s.store.call k⟩
  | .callbackReturns =>
      s.run.running.bind fun (k, times) =>
        (s.run.axis.timerHashMap k).bind fun timer =>
          (s.run.step .callbackReturns).map fun run =>
            ⟨run, if timer.finished times then s.store.drop k else s.store⟩
  | .clients cells => some { s with store := s.store.setClients cells }
  | .finalize =>
      match s.run.running with
      -- the loop has ended before
      | some _ => none
      | none =>
          some ⟨{ s.run with axis := s.run.axis.finalize s.store.keys }, s.store.dropAll⟩

/-- The keys with data are those of the table. -/
structure Inv (s : TimerWorld S) : Prop where
  run : s.run.Inv
  store : s.store.Ok
  same : ∀ k, (s.store.slots k).isSome ↔ (s.run.axis.timerHashMap k).isSome

omit [DecidableEq S] in
theorem Inv.init : (init : TimerWorld S).Inv where
  run := .init
  store := .init
  same := by
    intro k
    simp [TimerWorld.init, Store.init, TimerRun.init, TimerAxis.empty]

omit [DecidableEq S] in
theorem fillAsyncData_fills {m m' : Memory UInt8} {timer slot : Slot} {allocData done : Bool}
    {data : Option Addr} {len : ℕ}
    (h : fillAsyncData m timer allocData data len = some (m', slot, done)) :
    Fills m timer data len (m', slot, done) := by
  unfold fillAsyncData at h
  split_ifs at h with hnothing hzero halloc
  · cases h
    exact .same (hnothing.imp_right fun hlen => by omega)
  · omega
  · obtain ⟨⟨m₁, slot₁⟩, hcopy, hsame⟩ := Option.map_eq_some_iff.mp h
    cases hsame
    rw [not_or] at hnothing
    exact .copied hnothing.1 (by omega) hcopy
  · cases h
    exact .failed

/-- `SetTimer` adds its key to the table or leaves the keys alone. -/
theorem isSome_of_setsTimer {axis axis' : TimerAxis S} {k : TimerKey S}
    {data : Option DataPtr} {len : ℕ} {totalTimes : ℤ} {done : Bool}
    (h : axis.SetsTimer k data len totalTimes (axis', done)) (k' : TimerKey S) :
    (axis'.timerHashMap k').isSome ↔
      (axis.timerHashMap k').isSome ∨ k' = k ∧ done = true := by
  cases h with
  | unchanged hok hsame => simp [hsame]
  | failed hok hentry hremoved hremoved' hafter =>
      by_cases heq : k' = k
      · simp [hafter, heq, hentry]
      · simp [hafter, heq]
  | again env hok hentry hremoved hfilled hafter =>
      by_cases heq : k' = k
      · simp [hafter, heq]
      · simp [hafter, heq]
  | added env e hok hentry hfilled hafter =>
      by_cases heq : k' = k
      · simp [hafter, heq]
      · simp [hafter, heq]

/-- What `SetTimer` does to the data, and which keys have data then. -/
theorem setTimerData_spec {s : TimerWorld S} (h : s.Inv) {env : SetTimerEnv}
    {sink : Option S} {timerId : ℤ} {data : Option Addr} {len : ℕ} {done : Bool}
    {store : Store (TimerKey S) UInt8} (hsink : sink = none → done = false)
    (hset : s.setTimerData env sink timerId data len done = some store) :
    Relation.ReflTransGen Store.Step s.store store ∧
      ∀ k, (store.slots k).isSome ↔
        (s.store.slots k).isSome ∨ k = ⟨sink, timerId⟩ ∧ done = true := by
  cases sink with
  | none =>
      obtain rfl : s.store = store := Option.some.inj hset
      refine ⟨.refl, fun k => ?_⟩
      simp [hsink rfl]
  | some sink =>
      have hkey := h.same ⟨some sink, timerId⟩
      cases hentry : s.run.axis.timerHashMap ⟨some sink, timerId⟩ with
      | some timer =>
          rw [hentry, Option.isSome_some] at hkey
          simp only [setTimerData, hentry] at hset
          cases hremoved : timer.removed with
          | false =>
              obtain rfl : s.store = store := by simpa [hremoved] using hset
              refine ⟨.refl, fun k => ⟨.inl, ?_⟩⟩
              rintro (hk | ⟨rfl, -⟩)
              · exact hk
              · exact hkey.mpr rfl
          | true =>
              simp only [hremoved, Bool.not_true, Bool.false_eq_true, if_false,
                Option.map_eq_some_iff] at hset
              obtain ⟨⟨m, slot, filled⟩, hfill, rfl⟩ := hset
              refine ⟨.single (.put (fillAsyncData_fills hfill)), fun k => ?_⟩
              rw [Store.isSome_put]
              refine or_congr_right' fun hk => ?_
              refine iff_of_false ?_ fun hk' => hk (hk'.1 ▸ hkey.mpr rfl)
              rintro rfl
              exact hk (hkey.mpr rfl)
      | none =>
          rw [hentry, Option.isSome_none] at hkey
          simp only [setTimerData, hentry, Option.map_eq_some_iff] at hset
          obtain ⟨⟨m, slot, filled⟩, hfill, rfl⟩ := hset
          have hnone : s.store.slots ⟨some sink, timerId⟩ = none := by
            simpa using hkey
          cases done with
          | true =>
              rw [if_pos rfl]
              have hslot := Store.slot_of_none hnone
              refine ⟨.single (.put (hslot.symm ▸ fillAsyncData_fills hfill)), fun k => ?_⟩
              rw [Store.isSome_put]
              simp
          | false =>
              rw [if_neg Bool.false_ne_true]
              refine ⟨.single (.discard (fillAsyncData_fills hfill)), fun k => ?_⟩
              simp [Store.discard]

theorem setTimer_eq {s s' : TimerWorld S} {env : SetTimerEnv} {sink : Option S}
    {timerId : ℤ} {data : Option Addr} {len : ℕ} {totalTimes : ℤ} {done : Bool}
    (hset : s.setTimer env sink timerId data len totalTimes = some (s', done)) :
    s.setTimerData env sink timerId data len done = some s'.store ∧
      s.run.step (.setTimer env sink timerId (dataPtr s.store.memory data len) len
        totalTimes) = some s'.run ∧
      s.run.axis.setTimer env sink timerId (dataPtr s.store.memory data len) len
        totalTimes = (s'.run.axis, done) := by
  obtain ⟨store, hdata, hset⟩ := Option.bind_eq_some_iff.mp hset
  obtain ⟨run, hrun, hset⟩ := Option.map_eq_some_iff.mp hset
  cases hset
  refine ⟨hdata, hrun, ?_⟩
  simp only [TimerRun.step, Option.some.injEq] at hrun
  rw [← hrun]

theorem Inv.setTimer {s s' : TimerWorld S} (h : s.Inv) {env : SetTimerEnv}
    {sink : Option S} {timerId : ℤ} {data : Option Addr} {len : ℕ} {totalTimes : ℤ}
    {done : Bool}
    (hset : s.setTimer env sink timerId data len totalTimes = some (s', done)) :
    s'.Inv ∧ Relation.ReflTransGen Store.Step s.store s'.store := by
  obtain ⟨hdata, hrun, haxis⟩ := setTimer_eq hset
  have hsink : sink = none → done = false := by
    rintro rfl
    exact (congrArg Prod.snd haxis).symm
  obtain ⟨hsteps, hslots⟩ := setTimerData_spec h hsink hdata
  have hsets := h.run.axis.setTimer env sink timerId (dataPtr s.store.memory data len) len
    totalTimes
  rw [haxis] at hsets
  refine ⟨⟨h.run.step hrun, h.store.steps hsteps, fun k => ?_⟩, hsteps⟩
  rw [hslots k, isSome_of_setsTimer hsets k, h.same k]

theorem isSome_update_of_isSome {f : TimerKey S → Option (Timer S)} {k : TimerKey S}
    (hk : (f k).isSome) (timer : Timer S) (k' : TimerKey S) :
    (Function.update f k (some timer) k').isSome ↔ (f k').isSome := by
  by_cases heq : k' = k
  · simp [heq, hk]
  · simp [heq]

/-- A step of the timers is a number of steps of the store. -/
theorem Inv.step {s s' : TimerWorld S} {a : TimerWorldAction S} (h : s.Inv)
    (hstep : s.step a = some s') :
    s'.Inv ∧ Relation.ReflTransGen Store.Step s.store s'.store := by
  cases a with
  | setTimer env sink timerId data len totalTimes =>
      obtain ⟨⟨s₁, done⟩, hset, rfl⟩ := Option.map_eq_some_iff.mp hstep
      exact h.setTimer hset
  | killTimer eventDel sink timerId =>
      rw [TimerWorld.step, Option.map_eq_some_iff] at hstep
      obtain ⟨run, hrun, rfl⟩ := hstep
      refine ⟨⟨h.run.step hrun, h.store, fun k => ?_⟩, .refl⟩
      rw [h.same k]
      cases TimerRun.step_steps h.run hrun with
      | killTimer hok hafter =>
          cases eventDel with
          | false => simp [hafter]
          | true =>
              by_cases heq : k = ⟨sink, timerId⟩
              · simp [hafter, heq]
              · simp [hafter, heq]
  | onTimer e =>
      obtain ⟨⟨axis, k, call⟩, hcall, hstep⟩ := Option.bind_eq_some_iff.mp hstep
      obtain ⟨run, hrun, rfl⟩ := Option.map_eq_some_iff.mp hstep
      have hsteps : Relation.ReflTransGen Store.Step s.store (s.store.call k) :=
        .single (.call k)
      refine ⟨⟨h.run.step hrun, h.store.steps hsteps, fun k' => ?_⟩, hsteps⟩
      rw [Store.call_slots, h.same k']
      cases TimerRun.step_steps h.run hrun with
      | onTimer hidle hentry hremoved hok hafter =>
          rw [hafter, isSome_update_of_isSome (by rw [hentry]; rfl)]
  | callbackReturns =>
      obtain ⟨⟨k, times⟩, hrunning, hstep⟩ := Option.bind_eq_some_iff.mp hstep
      obtain ⟨timer, hentry, hstep⟩ := Option.bind_eq_some_iff.mp hstep
      obtain ⟨run, hrun, rfl⟩ := Option.map_eq_some_iff.mp hstep
      have hsteps : Relation.ReflTransGen Store.Step s.store
          (if timer.finished times then s.store.drop k else s.store) := by
        split_ifs
        · exact .single (.drop k)
        · exact .refl
      refine ⟨⟨h.run.step hrun, h.store.steps hsteps, fun k' => ?_⟩, hsteps⟩
      cases TimerRun.step_steps h.run hrun with
      | callbackReturns hrunning' hentry' hok hafter =>
          rw [hrunning, Option.some.injEq, Prod.mk.injEq] at hrunning'
          obtain ⟨rfl, rfl⟩ := hrunning'
          obtain rfl := Option.some.inj (hentry.symm.trans hentry')
          rw [hafter]
          split_ifs
          · rw [Store.isSome_drop, h.same k']
            by_cases heq : k' = k
            · simp [heq]
            · simp [heq]
          · exact h.same k'
  | clients cells =>
      obtain rfl : _ = s' := Option.some.inj hstep
      have hsteps : Relation.ReflTransGen Store.Step s.store (s.store.setClients cells) :=
        .single (.clients cells)
      exact ⟨⟨h.run, h.store.steps hsteps, h.same⟩, hsteps⟩
  | finalize =>
      cases hrunning : s.run.running with
      | some r => simp [TimerWorld.step, hrunning] at hstep
      | none =>
          simp only [TimerWorld.step, hrunning, Option.some.injEq] at hstep
          subst hstep
          have hsteps := s.store.dropAll_steps
          have haxis : (s.run.axis.finalize s.store.keys).Ok := by
            refine h.run.axis.finalize fun k hk => ?_
            exact h.store.keys k ((h.same k).mpr hk)
          refine ⟨⟨⟨haxis, ?_, ?_⟩, h.store.steps hsteps, fun k => ?_⟩, hsteps⟩
          · intro k times hrunning'
            cases hrunning'
          · intro k timer hkilled hentry
            cases hentry
          · rw [h.store.dropAll_slots k]
            rfl

theorem Inv.run_steps {s t : TimerWorld S} (h : s.Inv) {as : List (TimerWorldAction S)}
    (hrun : LabelledRun.run TimerWorld.step s as = some t) :
    t.Inv ∧ Relation.ReflTransGen Store.Step s.store t.store :=
  run_simulates (fun _ _ _ => Inv.step) h hrun

/-- Every copy has been released when the table has been finalized. -/
theorem Inv.finalize {s t : TimerWorld S} (h : s.Inv) (hstep : s.step .finalize = some t) :
    ∀ b < t.store.memory.fresh, t.store.memory.deleted.count (.block b 0) = 1 := by
  refine (h.step hstep).1.store.all_deleted fun k => ?_
  cases hrunning : s.run.running with
  | some r => simp [TimerWorld.step, hrunning] at hstep
  | none =>
      simp only [TimerWorld.step, hrunning, Option.some.injEq] at hstep
      rw [← hstep]
      exact h.store.dropAll_slots k

/-! ## A new timer -/

omit [DecidableEq S] in
theorem fillAsyncData_flag {m m' : Memory UInt8} {slot slot' : Slot} {allocData filled : Bool}
    {data : Option Addr} {len : ℕ}
    (h : fillAsyncData m slot allocData data len = some (m', slot', filled))
    (timer : Timer S) :
    (timer.fillAsyncData allocData (dataPtr m data len) len).2 = filled := by
  unfold fillAsyncData at h
  cases data with
  | none =>
      cases h
      rfl
  | some a =>
      by_cases hlen : len < 1
      · rw [if_pos (.inr hlen)] at h
        cases h
        simp [Timer.fillAsyncData, dataPtr, hlen]
      · have hzero : len ≠ 0 := by omega
        rw [if_neg (by simp [hlen]), if_neg hzero] at h
        cases allocData with
        | true =>
            obtain ⟨filled', -, hsame⟩ := Option.map_eq_some_iff.mp h
            cases hsame
            simp [Timer.fillAsyncData, dataPtr, hzero]
        | false =>
            cases h
            simp [Timer.fillAsyncData, dataPtr, hzero]

/-- A `SetTimer` that adds an entry puts the data under its key. -/
theorem setTimer_fresh {s s' : TimerWorld S} (h : s.Inv) {env : SetTimerEnv}
    {sink : Option S} {timerId : ℤ} {data : Option Addr} {len : ℕ} {totalTimes : ℤ}
    (hfresh : s.run.axis.timerHashMap ⟨sink, timerId⟩ = none)
    (hset : s.setTimer env sink timerId data len totalTimes = some (s', true)) :
    (∃ m slot, Fills s.store.memory .empty data len (m, slot, true) ∧
      s'.store = s.store.put ⟨sink, timerId⟩ m slot) ∧
    ∃ timer, s'.run.axis.timerHashMap ⟨sink, timerId⟩ = some timer ∧
      timer.removed = false := by
  obtain ⟨hdata, -, haxis⟩ := setTimer_eq hset
  have hsets := h.run.axis.setTimer env sink timerId (dataPtr s.store.memory data len) len
    totalTimes
  rw [haxis] at hsets
  cases sink with
  | none =>
      have hfalse : false = true := congrArg Prod.snd haxis
      cases hfalse
  | some sink =>
      simp only [setTimerData, hfresh, Option.map_eq_some_iff] at hdata
      obtain ⟨⟨m, slot, filled⟩, hfill, hput⟩ := hdata
      refine ⟨⟨m, slot, ?_, by simpa using hput.symm⟩, ?_⟩
      · cases filled with
        | true => exact fillAsyncData_fills hfill
        | false =>
            have hflag := fillAsyncData_flag hfill (Timer.new S)
            simp [TimerAxis.setTimer, hfresh, TimerAxis.setNewTimer, hflag] at haxis
      · cases hsets with
        | again env' hok hentry => simp [hfresh] at hentry
        | added env' e hok hentry hfilled hafter =>
            have hkeeps := (Timer.new S).fillAsyncData_keeps env'.allocData
              (dataPtr s.store.memory data len) len
            refine ⟨_, by rw [hafter, Function.update_self], ?_⟩
            exact (Timer.setTotalTimes_removed ..).trans hkeeps.2.2.2

theorem exists_called {s : TimerWorld S} (h : s.Inv) (hidle : s.run.running = none)
    {k : TimerKey S} {timer : Timer S} (hentry : s.run.axis.timerHashMap k = some timer)
    (hremoved : timer.removed = false) :
    ∃ e t, s.step (.onTimer e) = some t ∧ t.store = s.store.call k := by
  obtain ⟨e, axis', call, hcall⟩ := h.run.axis.callTimer_isSome hentry hremoved
  refine ⟨e, ⟨⟨axis', some (k, call.times), s.run.calls ++ [call], s.run.killed⟩,
    s.store.call k⟩, ?_, rfl⟩
  simp [TimerWorld.step, TimerRun.step, hcall, hidle]

/-- The callback of another entry may be waited for. -/
theorem exists_returned {s : TimerWorld S} (h : s.Inv) {k k' : TimerKey S} {times : ℕ}
    (hrunning : s.run.running = some (k', times)) (hne : k ≠ k') :
    ∃ t, s.step .callbackReturns = some t ∧ t.run.running = none ∧
      t.run.axis.timerHashMap k = s.run.axis.timerHashMap k ∧
        t.store.slots k = s.store.slots k := by
  obtain ⟨timer, hentry⟩ := Option.isSome_iff_exists.mp (h.run.running k' times hrunning)
  obtain ⟨axis', hfinish, -, hafter⟩ := h.run.axis.finishTimer hentry times
  refine ⟨⟨{ s.run with axis := axis', running := none },
    if timer.finished times then s.store.drop k' else s.store⟩, ?_, rfl, ?_, ?_⟩
  · simp [TimerWorld.step, TimerRun.step, hrunning, hentry, hfinish]
  · rw [hafter]
    split_ifs
    · exact Function.update_of_ne hne ..
    · rfl
  · dsimp only
    split_ifs
    · exact Function.update_of_ne hne ..
    · rfl

/-- A new timer keeps the law of its data all the time exactly where the length fits the
pointer. -/
theorem setTimer_law_iff {s s' : TimerWorld S} (h : s.Inv) {env : SetTimerEnv}
    {sink : Option S} {timerId : ℤ} {data : Option Addr} {len : ℕ} {totalTimes : ℤ}
    (hfresh : s.run.axis.timerHashMap ⟨sink, timerId⟩ = none)
    (hset : s.setTimer env sink timerId data len totalTimes = some (s', true)) :
    (∀ as t, LabelledRun.run step s' as = some t →
      t.store.Law s.store.made ⟨data, len, s.store.memory.read data len⟩) ↔
        (data = none ↔ len = 0) := by
  have hs' := (h.setTimer hset).1
  obtain ⟨⟨m, slot, hfills, hput⟩, timer, hentry, hremoved⟩ := setTimer_fresh h hfresh hset
  have hnone : s.store.slots ⟨sink, timerId⟩ = none := by
    simpa [hfresh] using h.same ⟨sink, timerId⟩
  constructor
  · intro hlaw
    by_contra hfits
    have hslots : s'.store.slots ⟨sink, timerId⟩ = some (.empty, s.store.made) := by
      rw [hput, hfills.eq_empty hfits]
      exact Function.update_self ..
    cases hrunning : s'.run.running with
    | none =>
        obtain ⟨e, t, hstep, hcall⟩ := exists_called hs' hrunning hentry hremoved
        have hbad := hlaw [.onTimer e] t (by simp [LabelledRun.run, hstep])
        rw [hcall] at hbad
        exact Store.not_law_of_call hslots hfits hbad
    | some running =>
        obtain ⟨k', times⟩ := running
        have hne : ⟨sink, timerId⟩ ≠ k' := by
          rintro rfl
          have hrun := (setTimer_eq hset).2.1
          simp only [TimerRun.step, Option.some.injEq] at hrun
          have hbefore : s.run.running = some (⟨sink, timerId⟩, times) := by
            rw [← hrunning, ← hrun]
          have hthere := h.run.running _ times hbefore
          simp [hfresh] at hthere
        obtain ⟨u, hreturns, hidle, htimer, hslot⟩ := exists_returned hs' hrunning hne
        have hu := (hs'.step hreturns).1
        obtain ⟨e, t, hstep, hcall⟩ := exists_called hu hidle (htimer.trans hentry) hremoved
        have hbad := hlaw [.callbackReturns, .onTimer e] t (by
          simp [LabelledRun.run, hreturns, hstep])
        rw [hcall] at hbad
        exact Store.not_law_of_call (hslot.trans hslots) hfits hbad
  · intro hfits as t hrun
    have hsteps := (hs'.run_steps hrun).2
    rw [hput] at hsteps
    exact h.store.put_law hnone hfills hfits hsteps

end TimerWorld

end CommonComponent
