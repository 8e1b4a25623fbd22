import Mathlib.Logic.Function.Basic
import Mathlib.Tactic

/-!
# The timers of a thread

`TimerAxis` keeps one `Timer` for each sink and timer id and lets libevent call
it back: the entry owns a persistent event, whose callback argument leads back
to the entry.  A killed entry stays in the table, with its event not pending,
until the key is set again; only the dispatcher erases entries.

An event is known by its number.  Which calls of libevent and which allocations
fail is an argument of the operations that make them.  A `void*` of the caller is
an address together with the bytes found there; the interval is left to libevent.
-/

namespace CommonComponent

structure TimerKey (S : Type*) where
  sink : Option S
  timerId : ℤ
deriving DecidableEq

/-- What a data pointer of a caller of `SetTimer` points at. -/
structure DataPtr where
  addr : ℕ
  bytes : List UInt8
deriving DecidableEq

/-- What an entry keeps for its callbacks: an object by its address, or a copy
of a block. -/
inductive TimerData where
  | object (addr : ℕ)
  | copy (bytes : List UInt8)
deriving DecidableEq

structure Timer (S : Type*) where
  timerKey : TimerKey S
  event : Option ℕ
  data : Option TimerData
  len : ℕ
  totalTimes : ℤ
  times : ℕ
  removed : Bool
deriving DecidableEq

def Timer.new (S : Type*) : Timer S where
  timerKey := ⟨none, 0⟩
  event := none
  data := none
  len := 0
  totalTimes := -1
  times := 0
  removed := false

/-- A libevent event with `EV_PERSIST`; `arg` is the key of the entry that its
callback argument points to. -/
structure TimerEvent (S : Type*) where
  arg : TimerKey S
  pending : Bool

/-- `timer_hash_map_` and the events made so far and not freed. -/
@[ext]
structure TimerAxis (S : Type*) where
  timerHashMap : TimerKey S → Option (Timer S)
  events : ℕ → Option (TimerEvent S)
  nextEvent : ℕ

/-- Which of the calls `SetTimer` makes succeed. -/
structure SetTimerEnv where
  allocData : Bool
  createArg : Bool
  eventNew : Bool
  eventAdd : Bool

/-- One call of a sink's `OnTimer`. -/
structure TimerCall (S : Type*) where
  key : TimerKey S
  data : Option TimerData
  len : ℕ
  times : ℕ
deriving DecidableEq

namespace Timer

variable {S : Type*}

def releaseAsyncData (timer : Timer S) : Timer S :=
  if timer.data.isSome ∧ 0 < timer.len then
    { timer with data := none, len := 0 }
  else timer

def fillAsyncData (allocData : Bool) (timer : Timer S)
    (data : Option DataPtr) (len : ℕ) : Timer S × Bool :=
  match data with
  | none => (timer, true)
  | some ptr =>
      if len < 1 then (timer, true)
      else if len = 0 then
        -- never taken: the test before it has caught this length
        ({ timer with data := some (.object ptr.addr), len := 0 }, true)
      else
        let released := timer.releaseAsyncData
        if allocData then
          ({ released with data := some (.copy (ptr.bytes.take len)), len := len },
            true)
        else ({ released with data := none }, false)

/-- The counters that `SetTimer` writes; a count below one leaves them. -/
def setTotalTimes (timer : Timer S) (totalTimes : ℤ) : Timer S :=
  if 0 < totalTimes then
    { timer with totalTimes := totalTimes, times := 0 }
  else timer

/-- The test of the dispatcher after the callback, where `times` is its own copy
of the counter. -/
def finished (timer : Timer S) (times : ℕ) : Bool :=
  timer.removed || (decide (0 < timer.totalTimes) && decide (timer.totalTimes ≤ times))

end Timer

namespace TimerAxis

variable {S : Type*} [DecidableEq S]

def empty : TimerAxis S where
  timerHashMap := fun _ => none
  events := fun _ => none
  nextEvent := 0

def putTimer (axis : TimerAxis S) (k : TimerKey S) (timer : Timer S) :
    TimerAxis S :=
  { axis with timerHashMap := Function.update axis.timerHashMap k (some timer) }

def eraseTimer (axis : TimerAxis S) (k : TimerKey S) : TimerAxis S :=
  { axis with timerHashMap := Function.update axis.timerHashMap k none }

omit [DecidableEq S] in
/-- `event_add` and `event_del` on a live event. -/
def setPending (axis : TimerAxis S) (e : ℕ) (pending : Bool) : TimerAxis S :=
  { axis with
    events := Function.update axis.events e
      ((axis.events e).map fun event => { event with pending := pending }) }

omit [DecidableEq S] in
def eventNew (axis : TimerAxis S) (k : TimerKey S) : TimerAxis S :=
  { axis with
    events := Function.update axis.events axis.nextEvent (some ⟨k, false⟩)
    nextEvent := axis.nextEvent + 1 }

omit [DecidableEq S] in
def eventFree (axis : TimerAxis S) (e : ℕ) : TimerAxis S :=
  { axis with events := Function.update axis.events e none }

def timerExist (axis : TimerAxis S) (sink : Option S) (timerId : ℤ) : Bool :=
  match sink with
  | none => false
  | some _ =>
      match axis.timerHashMap ⟨sink, timerId⟩ with
      | none => false
      | some timer => !timer.removed

/-- `SetTimer` on an entry that is there. -/
def setExistingTimer (axis : TimerAxis S) (env : SetTimerEnv) (k : TimerKey S)
    (timer : Timer S) (data : Option DataPtr) (len : ℕ) (totalTimes : ℤ) :
    TimerAxis S × Bool :=
  if !timer.removed then (axis, false)
  else
    let (timer', filled) :=
      (timer.setTotalTimes totalTimes).fillAsyncData env.allocData data len
    if !filled then (axis.putTimer k timer', false)
    else
      match timer'.event, env.eventAdd with
      | some e, true =>
          ((axis.setPending e true).putTimer k { timer' with removed := false },
            true)
      | _, _ => (axis.putTimer k timer', false)

/-- `SetTimer` on a key without an entry. -/
def setNewTimer (axis : TimerAxis S) (env : SetTimerEnv) (k : TimerKey S)
    (data : Option DataPtr) (len : ℕ) (totalTimes : ℤ) : TimerAxis S × Bool :=
  let added := axis.putTimer k (Timer.new S)
  let (timer, filled) := (Timer.new S).fillAsyncData env.allocData data len
  if !filled then (added.eraseTimer k, false)
  else if !env.createArg then (added.eraseTimer k, false)
  else if !env.eventNew then (added.eraseTimer k, false)
  else
    let e := added.nextEvent
    let added := added.eventNew k
    if !env.eventAdd then ((added.eventFree e).eraseTimer k, false)
    else
      ((added.setPending e true).putTimer k
        { timer.setTotalTimes totalTimes with timerKey := k, event := some e },
        true)

def setTimer (axis : TimerAxis S) (env : SetTimerEnv) (sink : Option S)
    (timerId : ℤ) (data : Option DataPtr) (len : ℕ) (totalTimes : ℤ) :
    TimerAxis S × Bool :=
  match sink with
  | none => (axis, false)
  | some _ =>
      match axis.timerHashMap ⟨sink, timerId⟩ with
      | some timer =>
          axis.setExistingTimer env ⟨sink, timerId⟩ timer data len totalTimes
      | none => axis.setNewTimer env ⟨sink, timerId⟩ data len totalTimes

def killTimer (axis : TimerAxis S) (eventDel : Bool) (sink : Option S)
    (timerId : ℤ) : TimerAxis S :=
  match sink with
  | none => axis
  | some _ =>
      match axis.timerHashMap ⟨sink, timerId⟩ with
      | none => axis
      | some timer =>
          match timer.event, eventDel with
          | some e, true =>
              (axis.setPending e false).putTimer ⟨sink, timerId⟩
                { timer with removed := true }
          | _, _ => axis

/-- The dispatcher up to the callback, for a pending event: the entry with its
counter raised, and the call it makes. -/
def callTimer (axis : TimerAxis S) (e : ℕ) :
    Option (TimerAxis S × TimerKey S × TimerCall S) :=
  match axis.events e with
  | none => none
  | some event =>
      if event.pending then
        (axis.timerHashMap event.arg).map fun timer =>
          let times := timer.times + 1
          (axis.putTimer event.arg { timer with times := times }, event.arg,
            ⟨timer.timerKey, timer.data, timer.len, times⟩)
      else none

def removeTimer (axis : TimerAxis S) (timer : Timer S) : TimerAxis S :=
  match timer.event with
  | none => axis.eraseTimer timer.timerKey
  | some e => (axis.eventFree e).eraseTimer timer.timerKey

/-- The dispatcher behind the callback of the entry of `k`. -/
def finishTimer (axis : TimerAxis S) (k : TimerKey S) (times : ℕ) :
    Option (TimerAxis S) :=
  (axis.timerHashMap k).map fun timer =>
    if timer.finished times then axis.removeTimer timer else axis

end TimerAxis

/-- The data of an entry is a copy of at least one byte, or there is none. -/
def Timer.DataOk {S : Type*} (timer : Timer S) : Prop :=
  (timer.data = none ∧ timer.len = 0) ∨
    ∃ bytes, timer.data = some (.copy bytes) ∧ 0 < timer.len

namespace Timer

variable {S : Type*} {timer : Timer S}

theorem fillAsyncData_keeps (allocData : Bool) (timer : Timer S)
    (data : Option DataPtr) (len : ℕ) :
    ((timer.fillAsyncData allocData data len).1.event = timer.event ∧
      (timer.fillAsyncData allocData data len).1.timerKey = timer.timerKey) ∧
    (timer.fillAsyncData allocData data len).1.totalTimes = timer.totalTimes ∧
      (timer.fillAsyncData allocData data len).1.times = timer.times ∧
      (timer.fillAsyncData allocData data len).1.removed = timer.removed := by
  unfold fillAsyncData releaseAsyncData
  cases data with
  | none => simp
  | some ptr => cases allocData <;> dsimp only <;> split_ifs <;> simp

/-- Data that `SetTimer` keeps is copied whole; other data leaves the entry as
it was. -/
theorem fillAsyncData_data (timer : Timer S) {allocData : Bool}
    {data : Option DataPtr} {len : ℕ}
    (h : (timer.fillAsyncData allocData data len).2 = true) :
    (∃ ptr, data = some ptr ∧ 0 < len ∧
      (timer.fillAsyncData allocData data len).1.data =
        some (.copy (ptr.bytes.take len)) ∧
      (timer.fillAsyncData allocData data len).1.len = len) ∨
    ((data = none ∨ len = 0) ∧
      (timer.fillAsyncData allocData data len).1 = timer) := by
  cases data with
  | none => exact .inr ⟨.inl rfl, rfl⟩
  | some ptr =>
      by_cases hlen : len < 1
      · refine .inr ⟨.inr (by omega), ?_⟩
        simp [fillAsyncData, hlen]
      · have hpos : 0 < len := by omega
        cases allocData with
        | false => simp [fillAsyncData, hpos.ne', Nat.not_lt.mpr hpos] at h
        | true =>
            refine .inl ⟨ptr, rfl, hpos, ?_⟩
            simp [fillAsyncData, hpos.ne']

theorem DataOk.fillAsyncData (h : timer.DataOk) (allocData : Bool)
    (data : Option DataPtr) (len : ℕ) :
    (timer.fillAsyncData allocData data len).1.DataOk := by
  cases data with
  | none => exact h
  | some ptr =>
      by_cases hlen : len < 1
      · simpa [Timer.fillAsyncData, hlen] using h
      · have hpos : 0 < len := by omega
        cases allocData with
        | true =>
            refine .inr ⟨ptr.bytes.take len, ?_⟩
            simp [Timer.fillAsyncData, hpos.ne', hpos]
        | false =>
            refine .inl ?_
            rcases h with ⟨hdata, hlen'⟩ | ⟨bytes, hdata, hlen'⟩
            · simp [Timer.fillAsyncData, releaseAsyncData, hpos.ne', hdata, hlen']
            · simp [Timer.fillAsyncData, releaseAsyncData, hpos.ne', hdata, hlen']

@[simp] theorem setTotalTimes_event (timer : Timer S) (n : ℤ) :
    (timer.setTotalTimes n).event = timer.event := by
  unfold setTotalTimes
  split_ifs <;> rfl

@[simp] theorem setTotalTimes_timerKey (timer : Timer S) (n : ℤ) :
    (timer.setTotalTimes n).timerKey = timer.timerKey := by
  unfold setTotalTimes
  split_ifs <;> rfl

@[simp] theorem setTotalTimes_removed (timer : Timer S) (n : ℤ) :
    (timer.setTotalTimes n).removed = timer.removed := by
  unfold setTotalTimes
  split_ifs <;> rfl

@[simp] theorem setTotalTimes_data (timer : Timer S) (n : ℤ) :
    (timer.setTotalTimes n).data = timer.data := by
  unfold setTotalTimes
  split_ifs <;> rfl

@[simp] theorem setTotalTimes_len (timer : Timer S) (n : ℤ) :
    (timer.setTotalTimes n).len = timer.len := by
  unfold setTotalTimes
  split_ifs <;> rfl

@[simp] theorem setTotalTimes_totalTimes (timer : Timer S) (n : ℤ) :
    (timer.setTotalTimes n).totalTimes =
      if 0 < n then n else timer.totalTimes := by
  unfold setTotalTimes
  split_ifs <;> rfl

@[simp] theorem setTotalTimes_times (timer : Timer S) (n : ℤ) :
    (timer.setTotalTimes n).times = if 0 < n then 0 else timer.times := by
  unfold setTotalTimes
  split_ifs <;> rfl

theorem DataOk.setTotalTimes (h : timer.DataOk) (n : ℤ) :
    (timer.setTotalTimes n).DataOk := by
  simpa [DataOk] using h

end Timer

namespace TimerAxis

variable {S : Type*} [DecidableEq S]

/-- The table and libevent agree: every entry owns one event, which is pending
unless the entry is killed, and every event belongs to an entry. -/
structure Ok (axis : TimerAxis S) : Prop where
  entry : ∀ k timer, axis.timerHashMap k = some timer →
    ∃ e, timer.event = some e ∧ axis.events e = some ⟨k, !timer.removed⟩
  key : ∀ k timer, axis.timerHashMap k = some timer →
    timer.timerKey = k ∧ k.sink.isSome
  data : ∀ k timer, axis.timerHashMap k = some timer → timer.DataOk
  owned : ∀ e event, axis.events e = some event →
    ∃ timer, axis.timerHashMap event.arg = some timer ∧ timer.event = some e
  unused : ∀ e, axis.nextEvent ≤ e → axis.events e = none

namespace Ok

variable {axis : TimerAxis S}

omit [DecidableEq S] in
theorem empty : (TimerAxis.empty : TimerAxis S).Ok where
  entry := fun _ _ h => nomatch h
  key := fun _ _ h => nomatch h
  data := fun _ _ h => nomatch h
  owned := fun _ _ h => nomatch h
  unused := fun _ _ => rfl

theorem replace (h : axis.Ok) {k : TimerKey S} {timer : Timer S} {e : ℕ}
    (timer' : Timer S) (hentry : axis.timerHashMap k = some timer)
    (he : timer.event = some e)
    (hevent : timer'.event = timer.event)
    (hkey : timer'.timerKey = timer.timerKey) (hdata : timer'.DataOk) :
    ((axis.setPending e (!timer'.removed)).putTimer k timer').Ok := by
  obtain ⟨e', he', hpending⟩ := h.entry k timer hentry
  obtain rfl : e = e' := by simpa [he] using he'
  have hother : ∀ k' timer₁ e₁, k' ≠ k →
      axis.timerHashMap k' = some timer₁ → timer₁.event = some e₁ → e₁ ≠ e := by
    rintro k' timer₁ e₁ hne hentry₁ he₁ rfl
    obtain ⟨e₂, he₂, hpending₂⟩ := h.entry k' timer₁ hentry₁
    obtain rfl : e₁ = e₂ := by simpa [he₁] using he₂
    rw [hpending] at hpending₂
    simp only [Option.some.injEq, TimerEvent.mk.injEq] at hpending₂
    exact hne hpending₂.1.symm
  constructor
  · intro k' timer₁ hentry₁
    by_cases heq : k' = k
    · subst heq
      obtain rfl : timer' = timer₁ := by simpa [putTimer] using hentry₁
      exact ⟨e, by rw [hevent, he], by simp [putTimer, setPending, hpending]⟩
    · have hentry₁ : axis.timerHashMap k' = some timer₁ := by
        simpa [putTimer, setPending, heq] using hentry₁
      obtain ⟨e₁, he₁, hpending₁⟩ := h.entry k' timer₁ hentry₁
      refine ⟨e₁, he₁, ?_⟩
      simpa [putTimer, setPending, hother k' timer₁ e₁ heq hentry₁ he₁]
        using hpending₁
  · intro k' timer₁ hentry₁
    by_cases heq : k' = k
    · subst heq
      obtain rfl : timer' = timer₁ := by simpa [putTimer] using hentry₁
      exact hkey ▸ h.key k' timer hentry
    · have hentry₁ : axis.timerHashMap k' = some timer₁ := by
        simpa [putTimer, setPending, heq] using hentry₁
      exact h.key k' timer₁ hentry₁
  · intro k' timer₁ hentry₁
    by_cases heq : k' = k
    · subst heq
      obtain rfl : timer' = timer₁ := by simpa [putTimer] using hentry₁
      exact hdata
    · have hentry₁ : axis.timerHashMap k' = some timer₁ := by
        simpa [putTimer, setPending, heq] using hentry₁
      exact h.data k' timer₁ hentry₁
  · intro e₁ event hevent₁
    by_cases heq : e₁ = e
    · subst heq
      have hevent₁ : event = ⟨k, !timer'.removed⟩ := by
        simpa [putTimer, setPending, hpending, eq_comm] using hevent₁
      subst hevent₁
      exact ⟨timer', by simp [putTimer], by rw [hevent, he]⟩
    · have hevent₁ : axis.events e₁ = some event := by
        simpa [putTimer, setPending, heq] using hevent₁
      obtain ⟨timer₁, hentry₁, he₁⟩ := h.owned e₁ event hevent₁
      by_cases hk : event.arg = k
      · rw [hk, hentry, Option.some.injEq] at hentry₁
        subst hentry₁
        exact absurd (by simpa [he] using he₁) (Ne.symm heq)
      · exact ⟨timer₁, by simpa [putTimer, setPending, hk] using hentry₁, he₁⟩
  · intro e₁ hle
    have hnone := h.unused e₁ hle
    by_cases heq : e₁ = e
    · subst heq
      simp [hnone] at hpending
    · simpa [putTimer, setPending, heq] using hnone

theorem putTimer (h : axis.Ok) {k : TimerKey S} {timer timer' : Timer S}
    (hentry : axis.timerHashMap k = some timer)
    (hevent : timer'.event = timer.event)
    (hkey : timer'.timerKey = timer.timerKey)
    (hremoved : timer'.removed = timer.removed) (hdata : timer'.DataOk) :
    (axis.putTimer k timer').Ok := by
  obtain ⟨e, he, hpending⟩ := h.entry k timer hentry
  have hsame : axis.setPending e (!timer'.removed) = axis := by
    have hevents : Function.update axis.events e
        ((axis.events e).map fun event =>
          { event with pending := !timer'.removed }) = axis.events := by
      apply Function.update_eq_self_iff.mpr
      rw [hpending, hremoved]
      rfl
    rw [setPending, hevents]
  have hreplaced := h.replace timer' hentry he hevent hkey hdata
  rwa [hsame] at hreplaced

theorem insert (h : axis.Ok) {k : TimerKey S} (timer : Timer S)
    (hsink : k.sink.isSome) (hentry : axis.timerHashMap k = none)
    (hevent : timer.event = some axis.nextEvent) (hkey : timer.timerKey = k)
    (hremoved : timer.removed = false) (hdata : timer.DataOk) :
    (((axis.eventNew k).setPending axis.nextEvent true).putTimer k timer).Ok := by
  constructor
  · intro k' timer₁ hentry₁
    by_cases heq : k' = k
    · subst heq
      obtain rfl : timer = timer₁ := by
        simpa [TimerAxis.putTimer] using hentry₁
      exact ⟨axis.nextEvent, hevent,
        by simp [TimerAxis.putTimer, setPending, eventNew, hremoved]⟩
    · have hentry₁ : axis.timerHashMap k' = some timer₁ := by
        simpa [TimerAxis.putTimer, setPending, eventNew, heq] using hentry₁
      obtain ⟨e₁, he₁, hpending₁⟩ := h.entry k' timer₁ hentry₁
      have hne : e₁ ≠ axis.nextEvent := by
        rintro rfl
        simp [h.unused axis.nextEvent le_rfl] at hpending₁
      exact ⟨e₁, he₁,
        by simpa [TimerAxis.putTimer, setPending, eventNew, hne] using hpending₁⟩
  · intro k' timer₁ hentry₁
    by_cases heq : k' = k
    · subst heq
      obtain rfl : timer = timer₁ := by
        simpa [TimerAxis.putTimer] using hentry₁
      exact ⟨hkey, hsink⟩
    · exact h.key k' timer₁ (by
        simpa [TimerAxis.putTimer, setPending, eventNew, heq] using hentry₁)
  · intro k' timer₁ hentry₁
    by_cases heq : k' = k
    · subst heq
      obtain rfl : timer = timer₁ := by
        simpa [TimerAxis.putTimer] using hentry₁
      exact hdata
    · exact h.data k' timer₁ (by
        simpa [TimerAxis.putTimer, setPending, eventNew, heq] using hentry₁)
  · intro e₁ event hevent₁
    by_cases heq : e₁ = axis.nextEvent
    · subst heq
      have hevent₁ : event = ⟨k, true⟩ := by
        simpa [TimerAxis.putTimer, setPending, eventNew, eq_comm] using hevent₁
      subst hevent₁
      exact ⟨timer, by simp [TimerAxis.putTimer], hevent⟩
    · have hevent₁ : axis.events e₁ = some event := by
        simpa [TimerAxis.putTimer, setPending, eventNew, heq] using hevent₁
      obtain ⟨timer₁, hentry₁, he₁⟩ := h.owned e₁ event hevent₁
      have hk : event.arg ≠ k := by
        intro hk
        rw [hk, hentry] at hentry₁
        cases hentry₁
      exact ⟨timer₁, by
        simpa [TimerAxis.putTimer, setPending, eventNew, hk] using hentry₁, he₁⟩
  · intro e₁ hle
    have hle : axis.nextEvent + 1 ≤ e₁ := hle
    have hne : e₁ ≠ axis.nextEvent := by omega
    simpa [TimerAxis.putTimer, setPending, eventNew, hne]
      using h.unused e₁ (by omega)

theorem erase (h : axis.Ok) {k : TimerKey S} {timer : Timer S} {e : ℕ}
    (hentry : axis.timerHashMap k = some timer) (he : timer.event = some e) :
    ((axis.eventFree e).eraseTimer k).Ok := by
  obtain ⟨e', he', hpending⟩ := h.entry k timer hentry
  obtain rfl : e = e' := by simpa [he] using he'
  have hrest : ∀ k' timer₁,
      ((axis.eventFree e).eraseTimer k).timerHashMap k' = some timer₁ →
        k' ≠ k ∧ axis.timerHashMap k' = some timer₁ := by
    intro k' timer₁ hentry₁
    by_cases heq : k' = k
    · simp [eraseTimer, heq] at hentry₁
    · exact ⟨heq, by simpa [eraseTimer, eventFree, heq] using hentry₁⟩
  constructor
  · intro k' timer₁ hentry₁
    obtain ⟨hne, hentry₁⟩ := hrest k' timer₁ hentry₁
    obtain ⟨e₁, he₁, hpending₁⟩ := h.entry k' timer₁ hentry₁
    have hne' : e₁ ≠ e := by
      rintro rfl
      rw [hpending] at hpending₁
      simp only [Option.some.injEq, TimerEvent.mk.injEq] at hpending₁
      exact hne hpending₁.1.symm
    exact ⟨e₁, he₁, by simpa [eraseTimer, eventFree, hne'] using hpending₁⟩
  · intro k' timer₁ hentry₁
    exact h.key k' timer₁ (hrest k' timer₁ hentry₁).2
  · intro k' timer₁ hentry₁
    exact h.data k' timer₁ (hrest k' timer₁ hentry₁).2
  · intro e₁ event hevent₁
    by_cases heq : e₁ = e
    · simp [eraseTimer, eventFree, heq] at hevent₁
    · have hevent₁ : axis.events e₁ = some event := by
        simpa [eraseTimer, eventFree, heq] using hevent₁
      obtain ⟨timer₁, hentry₁, he₁⟩ := h.owned e₁ event hevent₁
      have hk : event.arg ≠ k := by
        intro hk
        rw [hk, hentry, Option.some.injEq] at hentry₁
        subst hentry₁
        exact heq (by simpa [he] using he₁.symm)
      exact ⟨timer₁, by simpa [eraseTimer, eventFree, hk] using hentry₁, he₁⟩
  · intro e₁ hle
    by_cases heq : e₁ = e
    · simp [eraseTimer, eventFree, heq]
    · simpa [eraseTimer, eventFree, heq] using h.unused e₁ hle

omit [DecidableEq S] in
theorem skipEvent (h : axis.Ok) :
    ({ axis with nextEvent := axis.nextEvent + 1 } : TimerAxis S).Ok :=
  { h with unused := fun e hle => h.unused e (by
      have hle : axis.nextEvent + 1 ≤ e := hle
      omega) }

end Ok

/-- What `SetTimer` does to the entries, by what it returns. -/
inductive SetsTimer (axis : TimerAxis S) (k : TimerKey S)
    (data : Option DataPtr) (len : ℕ) (totalTimes : ℤ) :
    TimerAxis S × Bool → Prop where
  | unchanged {axis' : TimerAxis S} (hok : axis'.Ok)
      (hsame : axis'.timerHashMap = axis.timerHashMap) :
      SetsTimer axis k data len totalTimes (axis', false)
  | failed {axis' : TimerAxis S} {timer timer' : Timer S} (hok : axis'.Ok)
      (hentry : axis.timerHashMap k = some timer)
      (hremoved : timer.removed = true) (hremoved' : timer'.removed = true)
      (hafter : axis'.timerHashMap =
        Function.update axis.timerHashMap k (some timer')) :
      SetsTimer axis k data len totalTimes (axis', false)
  | again {axis' : TimerAxis S} {timer : Timer S} (env : SetTimerEnv)
      (hok : axis'.Ok) (hentry : axis.timerHashMap k = some timer)
      (hremoved : timer.removed = true)
      (hfilled : ((timer.setTotalTimes totalTimes).fillAsyncData
        env.allocData data len).2 = true)
      (hafter : axis'.timerHashMap = Function.update axis.timerHashMap k
        (some { ((timer.setTotalTimes totalTimes).fillAsyncData
          env.allocData data len).1 with removed := false })) :
      SetsTimer axis k data len totalTimes (axis', true)
  | added {axis' : TimerAxis S} (env : SetTimerEnv) (e : ℕ)
      (hok : axis'.Ok) (hentry : axis.timerHashMap k = none)
      (hfilled : ((Timer.new S).fillAsyncData env.allocData data len).2 = true)
      (hafter : axis'.timerHashMap = Function.update axis.timerHashMap k
        (some { (((Timer.new S).fillAsyncData env.allocData data len).1).setTotalTimes
          totalTimes with timerKey := k, event := some e })) :
      SetsTimer axis k data len totalTimes (axis', true)

theorem Ok.setExistingTimer {axis : TimerAxis S} (h : axis.Ok)
    (env : SetTimerEnv) {k : TimerKey S} {timer : Timer S}
    (hentry : axis.timerHashMap k = some timer) (data : Option DataPtr)
    (len : ℕ) (totalTimes : ℤ) :
    SetsTimer axis k data len totalTimes
      (axis.setExistingTimer env k timer data len totalTimes) := by
  unfold TimerAxis.setExistingTimer
  cases hremoved : timer.removed with
  | false => exact .unchanged h rfl
  | true =>
      have hkeeps := (timer.setTotalTimes totalTimes).fillAsyncData_keeps
        env.allocData data len
      have hdata := ((h.data k timer hentry).setTotalTimes
        totalTimes).fillAsyncData env.allocData data len
      cases hfill : (timer.setTotalTimes totalTimes).fillAsyncData
          env.allocData data len with
      | mk timer' filled =>
          simp only [hfill, Timer.setTotalTimes_event,
            Timer.setTotalTimes_timerKey, Timer.setTotalTimes_removed,
            hremoved] at hkeeps hdata
          obtain ⟨⟨hevent, hkey⟩, -, -, hremoved'⟩ := hkeeps
          have hput : (axis.putTimer k timer').Ok :=
            h.putTimer hentry hevent hkey (hremoved'.trans hremoved.symm) hdata
          have hfailed : SetsTimer axis k data len totalTimes
              (axis.putTimer k timer', false) :=
            .failed hput hentry hremoved hremoved' rfl
          obtain ⟨e, he, -⟩ := h.entry k timer hentry
          have he' : timer'.event = some e := hevent.trans he
          cases filled with
          | false => exact hfailed
          | true =>
              cases hadd : env.eventAdd with
              | false => simpa [he'] using hfailed
              | true =>
                  have hreplaced := h.replace
                    { timer' with removed := false }
                    hentry he hevent hkey hdata
                  obtain ⟨timerKey, event, data', len', totalTimes', times',
                    removed'⟩ := timer'
                  obtain rfl : event = some e := he'
                  refine .again env hreplaced hentry hremoved ?_ ?_
                  · rw [hfill]
                  · rw [hfill]
                    rfl

theorem Ok.setNewTimer {axis : TimerAxis S} (h : axis.Ok)
    (env : SetTimerEnv) {k : TimerKey S} (hsink : k.sink.isSome)
    (hentry : axis.timerHashMap k = none) (data : Option DataPtr)
    (len : ℕ) (totalTimes : ℤ) :
    SetsTimer axis k data len totalTimes
      (axis.setNewTimer env k data len totalTimes) := by
  have hmap : Function.update (Function.update axis.timerHashMap k
      (some (Timer.new S))) k none = axis.timerHashMap := by
    rw [Function.update_idem, ← hentry, Function.update_eq_self]
  have hnew : (axis.putTimer k (Timer.new S)).eraseTimer k = axis :=
    TimerAxis.ext hmap rfl rfl
  have hkeeps := (Timer.new S).fillAsyncData_keeps env.allocData data len
  have hdata : ((Timer.new S).fillAsyncData env.allocData data len).1.DataOk :=
    Timer.DataOk.fillAsyncData (.inl ⟨rfl, rfl⟩) env.allocData data len
  unfold TimerAxis.setNewTimer
  cases hfill : (Timer.new S).fillAsyncData env.allocData data len with
  | mk timer filled =>
      simp only [hfill] at hkeeps hdata
      cases filled with
      | false => exact .unchanged (hnew.symm ▸ h) (by rw [hnew])
      | true =>
          cases hcreate : env.createArg with
          | false => exact .unchanged (hnew.symm ▸ h) (by rw [hnew])
          | true =>
              cases hmake : env.eventNew with
              | false => exact .unchanged (hnew.symm ▸ h) (by rw [hnew])
              | true =>
                  cases hadd : env.eventAdd with
                  | false =>
                      have hevents : Function.update (Function.update
                          axis.events axis.nextEvent (some ⟨k, false⟩))
                            axis.nextEvent none = axis.events := by
                        rw [Function.update_idem,
                          ← h.unused axis.nextEvent le_rfl,
                          Function.update_eq_self]
                      have hfree : (((axis.putTimer k (Timer.new S)).eventNew
                          k).eventFree axis.nextEvent).eraseTimer k =
                            { axis with nextEvent := axis.nextEvent + 1 } :=
                        TimerAxis.ext hmap hevents rfl
                      exact .unchanged (hfree.symm ▸ h.skipEvent) hmap
                  | true =>
                      have hinserted := h.insert
                        { timer.setTotalTimes totalTimes with
                          timerKey := k, event := some axis.nextEvent }
                        hsink hentry rfl rfl ?_ ?_
                      · have hagain : (((axis.putTimer k (Timer.new S)).eventNew
                            k).setPending axis.nextEvent true).putTimer k
                              { timer.setTotalTimes totalTimes with
                                timerKey := k, event := some axis.nextEvent } =
                            ((axis.eventNew k).setPending axis.nextEvent
                              true).putTimer k
                                { timer.setTotalTimes totalTimes with
                                  timerKey := k, event := some axis.nextEvent } :=
                          TimerAxis.ext (Function.update_idem ..) rfl rfl
                        refine .added env axis.nextEvent
                          (hagain.symm ▸ hinserted) hentry ?_ ?_
                        · rw [hfill]
                        · rw [hfill]
                          exact Function.update_idem ..
                      · exact (Timer.setTotalTimes_removed ..).trans hkeeps.2.2.2
                      · exact hdata.setTotalTimes totalTimes

theorem Ok.setTimer {axis : TimerAxis S} (h : axis.Ok) (env : SetTimerEnv)
    (sink : Option S) (timerId : ℤ) (data : Option DataPtr) (len : ℕ)
    (totalTimes : ℤ) :
    SetsTimer axis ⟨sink, timerId⟩ data len totalTimes
      (axis.setTimer env sink timerId data len totalTimes) := by
  cases sink with
  | none => exact .unchanged h rfl
  | some s =>
      cases hentry : axis.timerHashMap ⟨some s, timerId⟩ with
      | some timer =>
          simp only [TimerAxis.setTimer, hentry]
          exact h.setExistingTimer env hentry data len totalTimes
      | none =>
          simp only [TimerAxis.setTimer, hentry]
          exact h.setNewTimer env rfl hentry data len totalTimes

theorem Ok.killTimer {axis : TimerAxis S} (h : axis.Ok) (eventDel : Bool)
    (sink : Option S) (timerId : ℤ) :
    (axis.killTimer eventDel sink timerId).Ok ∧
      (axis.killTimer eventDel sink timerId).timerHashMap =
        if eventDel then
          Function.update axis.timerHashMap ⟨sink, timerId⟩
            ((axis.timerHashMap ⟨sink, timerId⟩).map
              fun timer => { timer with removed := true })
        else axis.timerHashMap := by
  have hself : ∀ k, axis.timerHashMap k = none →
      axis.timerHashMap = if eventDel then
          Function.update axis.timerHashMap k ((axis.timerHashMap k).map
            fun timer => { timer with removed := true })
        else axis.timerHashMap := by
    intro k hk
    cases eventDel with
    | false => rfl
    | true =>
        rw [if_pos rfl, hk, Option.map_none, ← hk, Function.update_eq_self]
  cases sink with
  | none =>
      refine ⟨h, hself _ ?_⟩
      cases hentry : axis.timerHashMap ⟨none, timerId⟩ with
      | none => rfl
      | some timer => simpa using (h.key _ timer hentry).2
  | some s =>
      cases hentry : axis.timerHashMap ⟨some s, timerId⟩ with
      | none =>
          simp only [TimerAxis.killTimer, hentry]
          exact ⟨h, hentry ▸ hself _ hentry⟩
      | some timer =>
          obtain ⟨e, he, -⟩ := h.entry _ timer hentry
          cases eventDel with
          | false =>
              simp only [TimerAxis.killTimer, hentry, he]
              exact ⟨h, rfl⟩
          | true =>
              have hkilled := h.replace { timer with removed := true }
                hentry he rfl rfl (h.data _ timer hentry)
              simp only [TimerAxis.killTimer, hentry, he]
              exact ⟨he ▸ hkilled, he ▸ rfl⟩

/-- The dispatcher calls the sink of a live entry with what the entry keeps. -/
theorem Ok.callTimer {axis axis' : TimerAxis S} (h : axis.Ok) {e : ℕ}
    {k : TimerKey S} {call : TimerCall S}
    (hcall : axis.callTimer e = some (axis', k, call)) :
    ∃ timer, axis.timerHashMap k = some timer ∧ timer.removed = false ∧
      call = ⟨k, timer.data, timer.len, timer.times + 1⟩ ∧
      axis'.timerHashMap = Function.update axis.timerHashMap k
        (some { timer with times := timer.times + 1 }) ∧ axis'.Ok := by
  cases hevent : axis.events e with
  | none => simp [TimerAxis.callTimer, hevent] at hcall
  | some event =>
      obtain ⟨arg, pending⟩ := event
      obtain ⟨timer, hentry, he⟩ := h.owned e _ hevent
      obtain ⟨e', he', hpending⟩ := h.entry _ timer hentry
      obtain rfl : e = e' := by simpa [he] using he'
      obtain rfl : pending = !timer.removed := by
        simpa [hevent] using hpending
      cases hremoved : timer.removed with
      | true => simp [TimerAxis.callTimer, hevent, hremoved] at hcall
      | false =>
          simp only [hremoved, Bool.not_false] at hevent hentry
          simp only [TimerAxis.callTimer, hevent, if_true, hentry,
            Option.map_some, Option.some.injEq, Prod.mk.injEq] at hcall
          obtain ⟨rfl, rfl, rfl⟩ := hcall
          refine ⟨timer, hentry, hremoved, ?_, rfl, ?_⟩
          · rw [(h.key _ timer hentry).1]
          · exact h.putTimer hentry rfl rfl rfl (h.data _ timer hentry)

/-- Every live entry has an event that the loop may fire. -/
theorem Ok.callTimer_isSome {axis : TimerAxis S} (h : axis.Ok)
    {k : TimerKey S} {timer : Timer S}
    (hentry : axis.timerHashMap k = some timer)
    (hremoved : timer.removed = false) :
    ∃ e axis' call, axis.callTimer e = some (axis', k, call) := by
  obtain ⟨e, -, hpending⟩ := h.entry k timer hentry
  refine ⟨e, axis.putTimer k { timer with times := timer.times + 1 },
    ⟨timer.timerKey, timer.data, timer.len, timer.times + 1⟩, ?_⟩
  simp [TimerAxis.callTimer, hpending, hremoved, hentry]

theorem Ok.finishTimer {axis : TimerAxis S} (h : axis.Ok) {k : TimerKey S}
    {timer : Timer S} (hentry : axis.timerHashMap k = some timer) (times : ℕ) :
    ∃ axis', axis.finishTimer k times = some axis' ∧ axis'.Ok ∧
      axis'.timerHashMap = if timer.finished times then
        Function.update axis.timerHashMap k none else axis.timerHashMap := by
  obtain ⟨e, he, -⟩ := h.entry k timer hentry
  have hkey := (h.key k timer hentry).1
  simp only [TimerAxis.finishTimer, hentry, Option.map_some, removeTimer, he,
    hkey]
  cases timer.finished times with
  | true => exact ⟨_, rfl, h.erase hentry he, rfl⟩
  | false => exact ⟨axis, rfl, h, rfl⟩

omit [DecidableEq S] in
theorem Ok.timerExist_iff {axis : TimerAxis S} (h : axis.Ok) (k : TimerKey S) :
    axis.timerExist k.sink k.timerId = true ↔
      ∃ timer, axis.timerHashMap k = some timer ∧ timer.removed = false := by
  obtain ⟨sink, timerId⟩ := k
  cases sink with
  | none =>
      constructor
      · intro hexist
        simp [timerExist] at hexist
      · rintro ⟨timer, hentry, -⟩
        simpa using (h.key _ timer hentry).2
  | some s =>
      cases hentry : axis.timerHashMap ⟨some s, timerId⟩ with
      | none => simp [timerExist, hentry]
      | some timer => simp [timerExist, hentry]

end TimerAxis

end CommonComponent
