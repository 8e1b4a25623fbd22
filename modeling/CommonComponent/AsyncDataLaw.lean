import CommonComponent.TimerAxisData
import CommonComponent.TransCenterData

/-!
# Data for callbacks

A caller gives data with a timer or a transaction, either the pointer of an object and the
length 0 or a block of memory and its length, and the callbacks are to get the same again.

In both components the test for `nothing to keep' catches the length 0 before the branch for
objects is reached.  So the callbacks of an object get a null pointer; blocks are copied,
and the copies are released once.
-/

namespace CommonComponent

open CopyStore

/-- The callbacks of the registration get what was given, and the copies are released
once, in every run from here on. -/
def TimerWorld.KeepsData {S : Type*} [DecidableEq S] (s : TimerWorld S) (reg : ℕ)
    (given : Given UInt8) : Prop :=
  ∀ as t, LabelledRun.run TimerWorld.step s as = some t → t.store.Law reg given

def TransWorld.KeepsData (s : TransWorld) (reg : ℕ) (given : Given UInt8) : Prop :=
  ∀ as t, LabelledRun.run TransWorld.step s as = some t → t.store.Law reg given

/-- **Data for callbacks.**  New timers and transactions with a sink keep their data exactly
where the pointer is null if and only if the length is 0. -/
theorem asyncData_kept_iff {S : Type*} [DecidableEq S] (data : Option Addr) (len : ℕ) :
    (∀ as (s s' : TimerWorld S) env sink timerId totalTimes,
      LabelledRun.run TimerWorld.step .init as = some s →
      s.run.axis.timerHashMap ⟨sink, timerId⟩ = none →
      s.setTimer env sink timerId data len totalTimes = some (s', true) →
      (s'.KeepsData s.store.made ⟨data, len, s.store.memory.read data len⟩ ↔
        (data = none ↔ len = 0))) ∧
    ∀ as (s s' : TransWorld) env now (ctx : TransCtx) transId,
      LabelledRun.run TransWorld.step .init as = some s → ctx.sink.isSome →
      transId ≠ invalidTransID →
      s.recordTransCtx env now ctx data len = some (transId, s') →
      (s'.KeepsData s.store.made ⟨data, len, s.store.memory.read data len⟩ ↔
        (data = none ↔ len = 0)) := by
  constructor
  · intro as s s' env sink timerId totalTimes hrun hfresh hset
    have hs : s.Inv := (TimerWorld.Inv.init.run_steps hrun).1
    exact TimerWorld.setTimer_law_iff hs hfresh hset
  · intro as s s' env now ctx transId hrun hsink hid hrecord
    have hs : s.Inv := (TransWorld.Inv.init.run_steps hrun).1
    exact TransWorld.recordTransCtx_law_iff hs hsink hid hrecord

/-- Two cells of a caller. -/
def twoCells : ℕ → Option UInt8
  | 4096 => some 1
  | 4097 => some 2
  | _ => none

def sinkCtx : TransCtx where
  peer := ⟨.protoTcp, "10.0.0.1", 80⟩
  timeoutSec := 1
  passback := 0
  sink := some 1
  data := .null

theorem asyncData_kept_two_bytes :
    (∃ s s' : TimerWorld ℕ,
      LabelledRun.run TimerWorld.step .init [.clients twoCells] = some s ∧
      s.setTimer ⟨true, true, true, true⟩ (some 0) 1 (some (.client 4096)) 2 (-1) =
        some (s', true) ∧
      s'.KeepsData 0 ⟨some (.client 4096), 2, some [1, 2]⟩) ∧
    ∃ s s' : TransWorld,
      LabelledRun.run TransWorld.step .init [.clients twoCells] = some s ∧
      s.recordTransCtx ⟨true, true⟩ 0 sinkCtx (some (.client 4096)) 2 = some (1, s') ∧
      s'.KeepsData 0 ⟨some (.client 4096), 2, some [1, 2]⟩ := by
  obtain ⟨htimer, htrans⟩ := asyncData_kept_iff (S := ℕ) (some (.client 4096)) 2
  refine ⟨⟨_, _, rfl, rfl, ?_⟩, ?_⟩
  · exact (htimer [.clients twoCells] _ _ ⟨true, true, true, true⟩ (some 0) 1 (-1) rfl rfl
      rfl).mpr (by simp)
  · let s : TransWorld := { TransWorld.init with store := Store.init.setClients twoCells }
    have hid : (s.recordTransCtx ⟨true, true⟩ 0 sinkCtx (some (.client 4096)) 2).map
        Prod.fst = some 1 := by decide +kernel
    obtain ⟨⟨transId, s'⟩, hrecord, rfl⟩ := Option.map_eq_some_iff.mp hid
    refine ⟨s, s', rfl, hrecord, ?_⟩
    exact (htrans [.clients twoCells] s s' ⟨true, true⟩ 0 sinkCtx 1 rfl rfl (by decide)
      hrecord).mpr (by simp)

/-- An object: its pointer does not get to the callback of a timer, nor to the sink of a
transaction. -/
theorem asyncData_object_dropped :
    (∃ s t : TimerWorld ℕ,
      TimerWorld.init.setTimer ⟨true, true, true, true⟩ (some 0) 1 (some (.client 4096)) 0
        (-1) = some (s, true) ∧
      s.step (.onTimer 0) = some t ∧ t.store.calls = [⟨0, none, 0, some []⟩] ∧
      ¬ s.KeepsData 0 ⟨some (.client 4096), 0, some []⟩) ∧
    ∃ s t : TransWorld,
      TransWorld.init.recordTransCtx ⟨true, true⟩ 0 sinkCtx (some (.client 4096)) 0 =
        some (1, s) ∧
      s.step (.callSink 1) = some t ∧ t.store.calls = [⟨0, none, 0, some []⟩] ∧
      ¬ s.KeepsData 0 ⟨some (.client 4096), 0, some []⟩ := by
  have hbad : ¬ (⟨0, none, 0, some []⟩ : Call UInt8).Faithful
      ⟨some (.client 4096), 0, some []⟩ := by
    simp [Call.Faithful]
  refine ⟨⟨_, _, rfl, rfl, rfl, fun hkeeps => ?_⟩, ?_⟩
  · exact hbad ((hkeeps [.onTimer 0] _ rfl).faithful _ List.mem_cons_self rfl)
  · have hrun : ((TransWorld.init.recordTransCtx ⟨true, true⟩ 0 sinkCtx
        (some (.client 4096)) 0).bind fun r => (r.2.step (.callSink 1)).map fun t =>
          (r.1, t.store.calls)) = some (1, [⟨0, none, 0, some []⟩]) := by decide +kernel
    obtain ⟨⟨transId, s⟩, hrecord, hrun⟩ := Option.bind_eq_some_iff.mp hrun
    obtain ⟨t, hstep, hsame⟩ := Option.map_eq_some_iff.mp hrun
    obtain ⟨hid, hcalls⟩ := Prod.mk.inj hsame
    obtain rfl : transId = 1 := hid
    refine ⟨s, t, hrecord, hstep, hcalls, fun hkeeps => ?_⟩
    have hlaw := hkeeps [.callSink 1] t (by rw [LabelledRun.run, hstep]; rfl)
    exact hbad (hlaw.faithful _ (by rw [hcalls]; exact List.mem_cons_self) rfl)

end CommonComponent
