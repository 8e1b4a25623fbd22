import CommonComponent.LabelledRun
import CommonComponent.TimerAxis

/-!
# The task queue of a thread

A task goes into the queue of its thread and a byte into a pipe that the event
loop of the thread reads; where the pipe is full the byte waits in
`pending_notify_list_`, and a timer tries it again.  Commands to the thread travel
as bytes only.  A step is a section under `write_fd_mutex_` with what belongs to it:
producers push and notify, the loop calls `ReadCallback` and fires timers, and
other sinks use the same `TimerAxis`.

The invariant counts: no queue is longer than the bytes that are on their way.
-/

namespace CommonComponent

inductive ThreadCommand
  | stop
  | reload
  | exit
deriving DecidableEq

/-- A byte of the pipe, `'t'` or the byte of a command. -/
inductive NotifyByte
  | task
  | command (cmd : ThreadCommand)
deriving DecidableEq

/-- A task or a byte with the number of calls that were made for the thread before
the call it comes from; the code does not keep this number. -/
structure Issued (α : Type*) where
  issue : ℕ
  what : α
deriving DecidableEq

structure TaskQueue (T : Type*) where
  taskList : List (Issued T)
  curTaskCount : ℤ
  maxTaskCount : ℤ

/-- A `Thread` that has been initialized.  `running` is the timer callback that the
loop is in; `pushed`, `handed` and `ran` are the tasks pushed, those given to the
sink and the commands read so far, oldest first; `unarmed` says that the last
`SetTimer` for the list has failed. -/
structure ThreadState (S T : Type*) where
  pipe : List (Issued NotifyByte)
  tq : TaskQueue T
  pendingNotifyList : List (Issued NotifyByte)
  stopping : Bool
  reloadFinished : Bool
  axis : TimerAxis S
  running : Option (TimerKey S × ℕ)
  exited : Bool
  issues : ℕ
  pushed : List (Issued T)
  handed : List (Issued T)
  ran : List (Issued ThreadCommand)
  unarmed : Bool

def pendingNotifyTimerId : ℤ := 1

namespace TaskQueue

variable {T : Type*}

def empty : TaskQueue T where
  taskList := []
  curTaskCount := 0
  maxTaskCount := 0

def pushBack (tq : TaskQueue T) (task : Issued T) : TaskQueue T where
  taskList := tq.taskList ++ [task]
  curTaskCount := tq.curTaskCount + 1
  maxTaskCount := max tq.maxTaskCount (tq.curTaskCount + 1)

def popFront (tq : TaskQueue T) : Option (Issued T) × TaskQueue T :=
  match tq.taskList with
  | [] => (none, tq)
  | task :: rest =>
      (some task,
        { tq with taskList := rest, curTaskCount := tq.curTaskCount - 1 })

def isEmpty (tq : TaskQueue T) : Bool := decide (tq.curTaskCount = 0)

/-- The loop of `OnStop`, for at most the given number of rounds, with the tasks it
hands to the sink. -/
def drain : ℕ → TaskQueue T → Option (List (Issued T) × TaskQueue T)
  | 0, _ => none
  | rounds + 1, tq =>
      if tq.isEmpty then some ([], tq)
      else
        let popped := tq.popFront
        (drain rounds popped.2).map fun later =>
          (popped.1.toList ++ later.1, later.2)

end TaskQueue

namespace ThreadState

variable {S T : Type*} [DecidableEq S] (thread : S)

def init : ThreadState S T where
  pipe := []
  tq := .empty
  pendingNotifyList := []
  stopping := false
  reloadFinished := false
  axis := .empty
  running := none
  exited := false
  issues := 0
  pushed := []
  handed := []
  ran := []
  unarmed := false

/-- The thread as a sink, with the timer of `pending_notify_list_`. -/
def notifyKey : TimerKey S := ⟨some thread, pendingNotifyTimerId⟩

def startPendingNotifyTimer (s : ThreadState S T) (env : SetTimerEnv) :
    ThreadState S T :=
  if s.axis.timerExist (some thread) pendingNotifyTimerId then
    { s with unarmed := false }
  else
    let set := s.axis.setTimer env (some thread) pendingNotifyTimerId none 0 (-1)
    { s with axis := set.1, unarmed := !set.2 }

def stopPendingNotifyTimer (s : ThreadState S T) (eventDel : Bool) :
    ThreadState S T :=
  { s with axis := s.axis.killTimer eventDel (some thread) pendingNotifyTimerId }

/-- The section that `PushTask` and the three notifications share; `write` says
whether the pipe takes the byte. -/
def sendByte (s : ThreadState S T) (byte : NotifyByte) (write : Bool)
    (env : SetTimerEnv) : ThreadState S T :=
  let issued : Issued NotifyByte := ⟨s.issues, byte⟩
  let s := { s with issues := s.issues + 1 }
  if write then { s with pipe := s.pipe ++ [issued] }
  else
    { s with pendingNotifyList := s.pendingNotifyList ++ [issued] }
      |>.startPendingNotifyTimer thread env

def pushTask (s : ThreadState S T) (task : T) (write : Bool) (env : SetTimerEnv) :
    ThreadState S T :=
  let issued : Issued T := ⟨s.issues, task⟩
  { s with tq := s.tq.pushBack issued, pushed := s.pushed ++ [issued] }
    |>.sendByte thread .task write env

def notifyStop (s : ThreadState S T) (write : Bool) (env : SetTimerEnv) :
    ThreadState S T :=
  s.sendByte thread (.command .stop) write env

def notifyReload (s : ThreadState S T) (write : Bool) (env : SetTimerEnv) :
    ThreadState S T :=
  s.sendByte thread (.command .reload) write env

def notifyExit (s : ThreadState S T) (write : Bool) (env : SetTimerEnv) :
    ThreadState S T :=
  s.sendByte thread (.command .exit) write env

/-- `Thread::OnTimer`, which tries the first byte of the list. -/
def onTimer (s : ThreadState S T) (write eventDel : Bool) : ThreadState S T :=
  match s.pendingNotifyList with
  | [] => s.stopPendingNotifyTimer thread eventDel
  | byte :: rest =>
      if write then
        { s with pipe := s.pipe ++ [byte], pendingNotifyList := rest }
      else s

omit [DecidableEq S]

def onTask (s : ThreadState S T) : ThreadState S T :=
  let popped := s.tq.popFront
  { s with tq := popped.2, handed := s.handed ++ popped.1.toList }

def onStop (s : ThreadState S T) (issue : ℕ) : Option (ThreadState S T) :=
  let s : ThreadState S T := { s with ran := s.ran ++ [⟨issue, .stop⟩] }
  if s.stopping then some s
  else
    (s.tq.drain (s.tq.taskList.length + 1)).map fun drained =>
      { s with
        stopping := true
        tq := drained.2
        handed := s.handed ++ drained.1 }

def onReload (s : ThreadState S T) (issue : ℕ) : ThreadState S T :=
  { s with reloadFinished := true, ran := s.ran ++ [⟨issue, .reload⟩] }

def onExit (s : ThreadState S T) (issue : ℕ) : ThreadState S T :=
  { s with exited := true, ran := s.ran ++ [⟨issue, .exit⟩] }

/-- `ReadCallback`, which libevent calls while the pipe has a byte; `read` says
whether it gets the byte. -/
def readCallback (s : ThreadState S T) (read : Bool) : Option (ThreadState S T) :=
  match s.pipe with
  | [] => none
  | byte :: rest =>
      if read then
        let s := { s with pipe := rest }
        match byte.what with
        | .task => some s.onTask
        | .command .stop => s.onStop byte.issue
        | .command .reload => some (s.onReload byte.issue)
        | .command .exit => some (s.onExit byte.issue)
      else some s

end ThreadState

/-- What happens to a thread.  `timerFires` and `timerReturns` are `TimerAxis::OnTimer`
up to and behind the sink's callback; `setTimer` and `killTimer` are those of other
sinks. -/
inductive ThreadAction (S T : Type*) where
  | pushTask (task : T) (write : Bool) (env : SetTimerEnv)
  | notify (cmd : ThreadCommand) (write : Bool) (env : SetTimerEnv)
  | readCallback (read : Bool)
  | timerFires (e : ℕ) (write eventDel : Bool)
  | timerReturns
  | setTimer (env : SetTimerEnv) (sink : Option S) (timerId : ℤ)
      (data : Option DataPtr) (len : ℕ) (totalTimes : ℤ)
  | killTimer (eventDel : Bool) (sink : Option S) (timerId : ℤ)

namespace ThreadState

open LabelledRun

variable {S T : Type*} [DecidableEq S] (thread : S)

def notify (s : ThreadState S T) (cmd : ThreadCommand) (write : Bool)
    (env : SetTimerEnv) : ThreadState S T :=
  match cmd with
  | .stop => s.notifyStop thread write env
  | .reload => s.notifyReload thread write env
  | .exit => s.notifyExit thread write env

/-- Behind `OnExit` the loop calls nothing any more. -/
def step (s : ThreadState S T) : ThreadAction S T → Option (ThreadState S T)
  | .pushTask task write env => some (s.pushTask thread task write env)
  | .notify cmd write env => some (s.notify thread cmd write env)
  | .readCallback read =>
      if s.exited || s.running.isSome then none else s.readCallback read
  | .timerFires e write eventDel =>
      if s.exited || s.running.isSome then none
      else
        (s.axis.callTimer e).map fun (axis, k, call) =>
          let s := { s with axis := axis, running := some (k, call.times) }
          if call.key.sink = some thread then s.onTimer thread write eventDel else s
  | .timerReturns =>
      s.running.bind fun (k, times) =>
        (s.axis.finishTimer k times).map fun axis =>
          { s with axis := axis, running := none }
  | .setTimer env sink timerId data len totalTimes =>
      if sink = some thread then none
      else
        some { s with
          axis := (s.axis.setTimer env sink timerId data len totalTimes).1 }
  | .killTimer eventDel sink timerId =>
      if sink = some thread then none
      else some { s with axis := s.axis.killTimer eventDel sink timerId }


/-! ## The timer of the list -/

/-- The table as far as the thread's own timer goes: it fires until it is killed. -/
structure TimerOk (axis : TimerAxis S) : Prop where
  ok : axis.Ok
  endless : ∀ timer, axis.timerHashMap (notifyKey thread) = some timer →
    timer.totalTimes = -1

variable {thread} {axis axis' : TimerAxis S}

omit [DecidableEq S] in
theorem timerExist_of_sameEntry
    (h : axis'.timerHashMap (notifyKey thread) = axis.timerHashMap (notifyKey thread)) :
    axis'.timerExist (some thread) pendingNotifyTimerId =
      axis.timerExist (some thread) pendingNotifyTimerId := by
  unfold notifyKey at h
  simp only [TimerAxis.timerExist, h]

omit [DecidableEq S] in
theorem TimerOk.of_sameEntry (h : TimerOk thread axis) (hok : axis'.Ok)
    (hsame : axis'.timerHashMap (notifyKey thread) =
      axis.timerHashMap (notifyKey thread)) :
    TimerOk thread axis' ∧
      axis'.timerExist (some thread) pendingNotifyTimerId =
        axis.timerExist (some thread) pendingNotifyTimerId :=
  ⟨⟨hok, fun timer hentry => h.endless timer (hsame ▸ hentry)⟩,
    timerExist_of_sameEntry hsame⟩

theorem TimerOk.setOther (h : TimerOk thread axis) (env : SetTimerEnv)
    {sink : Option S} (hsink : sink ≠ some thread) (timerId : ℤ)
    (data : Option DataPtr) (len : ℕ) (totalTimes : ℤ) :
    TimerOk thread (axis.setTimer env sink timerId data len totalTimes).1 ∧
      (axis.setTimer env sink timerId data len totalTimes).1.timerExist (some thread)
          pendingNotifyTimerId =
        axis.timerExist (some thread) pendingNotifyTimerId := by
  have hne : notifyKey thread ≠ ⟨sink, timerId⟩ := by
    intro heq
    exact hsink (congrArg TimerKey.sink heq).symm
  have hsets := h.ok.setTimer env sink timerId data len totalTimes
  generalize axis.setTimer env sink timerId data len totalTimes = set at hsets ⊢
  cases hsets with
  | unchanged hok hsame => exact h.of_sameEntry hok (by rw [hsame])
  | failed hok _ _ _ hafter => exact h.of_sameEntry hok (by simp [hafter, hne])
  | again _ hok _ _ _ hafter => exact h.of_sameEntry hok (by simp [hafter, hne])
  | added _ _ hok _ _ hafter => exact h.of_sameEntry hok (by simp [hafter, hne])

omit [DecidableEq S] in
theorem TimerOk.exist_iff (h : TimerOk thread axis) :
    axis.timerExist (some thread) pendingNotifyTimerId = true ↔
      ∃ timer, axis.timerHashMap (notifyKey thread) = some timer ∧
        timer.removed = false :=
  h.ok.timerExist_iff (notifyKey thread)

omit [DecidableEq S] in
theorem fillAsyncData_none (timer : Timer S) (allocData : Bool) (len : ℕ) :
    timer.fillAsyncData allocData none len = (timer, true) := rfl

omit [DecidableEq S] in
theorem setTotalTimes_neg_one (timer : Timer S) :
    timer.setTotalTimes (-1) = timer := rfl

theorem TimerOk.setOwn_endless (h : TimerOk thread axis) (env : SetTimerEnv)
    (timer : Timer S)
    (hentry : (axis.setTimer env (some thread) pendingNotifyTimerId none 0
      (-1)).1.timerHashMap (notifyKey thread) = some timer) :
    timer.totalTimes = -1 := by
  cases hold : axis.timerHashMap (notifyKey thread) with
  | none =>
      have hold' : axis.timerHashMap ⟨some thread, pendingNotifyTimerId⟩ = none := hold
      simp only [TimerAxis.setTimer, hold', TimerAxis.setNewTimer,
        fillAsyncData_none, setTotalTimes_neg_one, Bool.not_true,
        Bool.false_eq_true, if_false] at hentry
      split_ifs at hentry
      all_goals
        simp only [TimerAxis.eraseTimer, TimerAxis.putTimer, notifyKey,
          Function.update_self, reduceCtorEq, Option.some.injEq] at hentry
      rw [← hentry]
      rfl
  | some old =>
      have hold' : axis.timerHashMap ⟨some thread, pendingNotifyTimerId⟩ =
        some old := hold
      have hendless := h.endless old hold
      simp only [TimerAxis.setTimer, hold', TimerAxis.setExistingTimer,
        fillAsyncData_none, setTotalTimes_neg_one, Bool.not_true,
        Bool.false_eq_true, if_false] at hentry
      split_ifs at hentry
      · exact h.endless timer hentry
      · split at hentry
        · simp only [TimerAxis.putTimer, notifyKey, Function.update_self,
            Option.some.injEq] at hentry
          rw [← hentry]
          exact hendless
        · simp only [TimerAxis.putTimer, notifyKey, Function.update_self,
            Option.some.injEq] at hentry
          rw [← hentry]
          exact hendless

theorem TimerOk.setOwn (h : TimerOk thread axis) (env : SetTimerEnv) :
    TimerOk thread
        (axis.setTimer env (some thread) pendingNotifyTimerId none 0 (-1)).1 ∧
      ((axis.setTimer env (some thread) pendingNotifyTimerId none 0 (-1)).2 = true →
        (axis.setTimer env (some thread) pendingNotifyTimerId none 0
          (-1)).1.timerExist (some thread) pendingNotifyTimerId = true) := by
  have hsets := h.ok.setTimer env (some thread) pendingNotifyTimerId none 0 (-1)
  have hendless := fun timer => h.setOwn_endless env timer
  generalize axis.setTimer env (some thread) pendingNotifyTimerId none 0 (-1) = set
    at hsets hendless ⊢
  cases hsets with
  | unchanged hok _ => exact ⟨⟨hok, hendless⟩, fun hset => nomatch hset⟩
  | failed hok _ _ _ _ => exact ⟨⟨hok, hendless⟩, fun hset => nomatch hset⟩
  | again _ hok _ _ _ hafter =>
      have hset : TimerOk thread _ := ⟨hok, hendless⟩
      exact ⟨hset, fun _ => hset.exist_iff.mpr
        ⟨_, by rw [hafter]; exact Function.update_self .., rfl⟩⟩
  | added _ _ hok _ _ hafter =>
      have hset : TimerOk thread _ := ⟨hok, hendless⟩
      exact ⟨hset, fun _ => hset.exist_iff.mpr
        ⟨_, by rw [hafter]; exact Function.update_self .., rfl⟩⟩

theorem TimerOk.killOther (h : TimerOk thread axis) (eventDel : Bool)
    {sink : Option S} (hsink : sink ≠ some thread) (timerId : ℤ) :
    TimerOk thread (axis.killTimer eventDel sink timerId) ∧
      (axis.killTimer eventDel sink timerId).timerExist (some thread)
          pendingNotifyTimerId =
        axis.timerExist (some thread) pendingNotifyTimerId := by
  have hne : notifyKey thread ≠ ⟨sink, timerId⟩ := by
    intro heq
    exact hsink (congrArg TimerKey.sink heq).symm
  obtain ⟨hok, hafter⟩ := h.ok.killTimer eventDel sink timerId
  apply h.of_sameEntry hok
  rw [hafter]
  cases eventDel with
  | true => simp [hne]
  | false => rfl

theorem TimerOk.killOwn (h : TimerOk thread axis) (eventDel : Bool) :
    TimerOk thread (axis.killTimer eventDel (some thread) pendingNotifyTimerId) := by
  obtain ⟨hok, hafter⟩ := h.ok.killTimer eventDel (some thread) pendingNotifyTimerId
  refine ⟨hok, fun timer hentry => ?_⟩
  rw [hafter] at hentry
  cases eventDel with
  | false => exact h.endless timer hentry
  | true =>
      simp only [notifyKey, if_true, Function.update_self, Option.map_eq_some_iff]
        at hentry
      obtain ⟨live, hlive, rfl⟩ := hentry
      exact h.endless live hlive

theorem TimerOk.callTimer (h : TimerOk thread axis) {e : ℕ} {k : TimerKey S}
    {call : TimerCall S} (hcall : axis.callTimer e = some (axis', k, call)) :
    TimerOk thread axis' ∧
      axis'.timerExist (some thread) pendingNotifyTimerId =
        axis.timerExist (some thread) pendingNotifyTimerId := by
  obtain ⟨timer, hentry, hremoved, rfl, hafter, hok⟩ := h.ok.callTimer hcall
  by_cases hk : notifyKey thread = k
  · subst hk
    have hendless : ∀ timer', axis'.timerHashMap (notifyKey thread) = some timer' →
        timer'.totalTimes = -1 := by
      intro timer' hentry'
      rw [hafter, Function.update_self, Option.some.injEq] at hentry'
      rw [← hentry']
      exact h.endless timer hentry
    refine ⟨⟨hok, hendless⟩, ?_⟩
    · have hcalled : TimerOk thread axis' := ⟨hok, hendless⟩
      rw [Bool.eq_iff_iff, hcalled.exist_iff, h.exist_iff]
      simp [hafter, hentry, hremoved]
  · exact h.of_sameEntry hok (by simp [hafter, hk])

theorem TimerOk.finishTimer (h : TimerOk thread axis) {k : TimerKey S} {times : ℕ}
    (hfinish : axis.finishTimer k times = some axis') :
    TimerOk thread axis' ∧
      axis'.timerExist (some thread) pendingNotifyTimerId =
        axis.timerExist (some thread) pendingNotifyTimerId := by
  obtain ⟨timer, hentry, -⟩ := Option.map_eq_some_iff.mp hfinish
  obtain ⟨axis₁, hfinish', hok, hafter⟩ := h.ok.finishTimer hentry times
  rw [hfinish, Option.some.injEq] at hfinish'
  subst hfinish'
  by_cases hfinished : timer.finished times = true
  · rw [if_pos hfinished] at hafter
    by_cases hk : notifyKey thread = k
    · -- the entry of the thread goes only if it has been killed
      subst hk
      have hendless := h.endless timer hentry
      have hremoved : timer.removed = true := by
        simpa [Timer.finished, hendless] using hfinished
      have hnone : axis'.timerHashMap (notifyKey thread) = none := by simp [hafter]
      have herased : TimerOk thread axis' :=
        ⟨hok, fun timer' hentry' => by rw [hnone] at hentry'; cases hentry'⟩
      refine ⟨herased, ?_⟩
      rw [Bool.eq_iff_iff, herased.exist_iff, h.exist_iff]
      simp [hnone, hentry, hremoved]
    · exact h.of_sameEntry hok (by simp [hafter, hk])
  · rw [if_neg hfinished] at hafter
    exact h.of_sameEntry hok (by rw [hafter])

end ThreadState

/-! ## The queue -/

namespace TaskQueue

variable {T : Type*} {tq : TaskQueue T}

def Counted (tq : TaskQueue T) : Prop := tq.curTaskCount = tq.taskList.length

theorem Counted.pushBack (h : tq.Counted) (task : Issued T) :
    (tq.pushBack task).Counted := by
  unfold Counted at h ⊢
  simp [TaskQueue.pushBack, h]

theorem Counted.popFront (h : tq.Counted) : tq.popFront.2.Counted := by
  unfold Counted at h ⊢
  cases hlist : tq.taskList with
  | nil => simpa [TaskQueue.popFront, hlist] using h
  | cons task rest => simp [TaskQueue.popFront, hlist, h]

theorem popFront_append (tq : TaskQueue T) :
    tq.popFront.1.toList ++ tq.popFront.2.taskList = tq.taskList := by
  unfold popFront
  cases hlist : tq.taskList with
  | nil => simp [hlist]
  | cons task rest => rfl

theorem length_popFront (tq : TaskQueue T) :
    tq.popFront.2.taskList.length = tq.taskList.length - 1 := by
  unfold popFront
  cases hlist : tq.taskList with
  | nil => simp [hlist]
  | cons task rest => simp

/-- Where the count is right the loop of `OnStop` ends and takes every task. -/
theorem Counted.drain {rounds : ℕ} (h : tq.Counted)
    (hrounds : tq.taskList.length < rounds) :
    ∃ tq', tq.drain rounds = some (tq.taskList, tq') ∧ tq'.taskList = [] ∧
      tq'.Counted := by
  induction rounds generalizing tq with
  | zero => omega
  | succ rounds ih =>
      cases hlist : tq.taskList with
      | nil =>
          have hempty : tq.isEmpty = true := by
            simp [isEmpty, show tq.curTaskCount = _ from h, hlist]
          exact ⟨tq, by simp [TaskQueue.drain, hempty], hlist, h⟩
      | cons task rest =>
          have hempty : tq.isEmpty = false := by
            simp only [isEmpty, show tq.curTaskCount = _ from h, hlist,
              List.length_cons, decide_eq_false_iff_not]
            omega
          have hpopped : tq.popFront.1 = some task ∧
              tq.popFront.2.taskList = rest := by
            simp [TaskQueue.popFront, hlist]
          have hlen : tq.popFront.2.taskList.length < rounds := by
            rw [hpopped.2]
            simpa [hlist] using hrounds
          obtain ⟨tq', hdrain, hnil, hcounted⟩ := ih h.popFront hlen
          refine ⟨tq', ?_, hnil, hcounted⟩
          simp [TaskQueue.drain, hempty, hdrain, hpopped.1, hpopped.2]

end TaskQueue

namespace ThreadState

open LabelledRun

variable {S T : Type*} [DecidableEq S] (thread : S)

def taskBytes (bytes : List (Issued NotifyByte)) : ℕ :=
  bytes.countP fun byte => byte.what = .task

/-- No task is queued without a byte on its way to the loop, the list does not wait
without its timer, and the sink has been given the tasks that were pushed, in order
and up to those still queued. -/
structure QueueOk (s : ThreadState S T) : Prop where
  notified : s.tq.taskList.length ≤ taskBytes s.pipe + taskBytes s.pendingNotifyList
  armed : s.unarmed = false → s.pendingNotifyList ≠ [] →
    ∃ e, s.axis.events e = some ⟨notifyKey thread, true⟩
  counted : s.tq.Counted
  order : s.handed ++ s.tq.taskList = s.pushed

/-- What has been given to the sink or pushed stays so. -/
def Grows (s : ThreadState S T) (_ : ThreadAction S T) (s' : ThreadState S T) : Prop :=
  s.handed <+: s'.handed ∧ s.pushed <+: s'.pushed

structure Inv (s : ThreadState S T) : Prop where
  notified : s.tq.taskList.length ≤ taskBytes s.pipe + taskBytes s.pendingNotifyList
  armed : s.unarmed = false → s.pendingNotifyList ≠ [] →
    s.axis.timerExist (some thread) pendingNotifyTimerId = true
  counted : s.tq.Counted
  order : s.handed ++ s.tq.taskList = s.pushed
  timer : TimerOk thread s.axis

variable {thread} {s s' : ThreadState S T}

omit [DecidableEq S] in
theorem Inv.init : (init : ThreadState S T).Inv thread where
  notified := le_rfl
  armed := fun _ hne => absurd rfl hne
  counted := rfl
  order := rfl
  timer := ⟨.empty, fun _ h => nomatch h⟩

omit [DecidableEq S] in
theorem Inv.queueOk (h : s.Inv thread) : s.QueueOk thread where
  notified := h.notified
  armed := by
    intro harmed hne
    obtain ⟨timer, hentry, hremoved⟩ := h.timer.exist_iff.mp (h.armed harmed hne)
    obtain ⟨e, -, hevent⟩ := h.timer.ok.entry _ timer hentry
    rw [hremoved] at hevent
    exact ⟨e, hevent⟩
  counted := h.counted
  order := h.order

@[simp] theorem taskBytes_append (bytes bytes' : List (Issued NotifyByte)) :
    taskBytes (bytes ++ bytes') = taskBytes bytes + taskBytes bytes' :=
  List.countP_append

@[simp] theorem taskBytes_nil : taskBytes [] = 0 := rfl

theorem taskBytes_cons (byte : Issued NotifyByte) (bytes : List (Issued NotifyByte)) :
    taskBytes (byte :: bytes) = (if byte.what = .task then 1 else 0) + taskBytes bytes := by
  by_cases htask : byte.what = .task
  · simp [taskBytes, htask, Nat.add_comm]
  · simp [taskBytes, htask]

variable (thread) in
inductive Sends (s : ThreadState S T) (byte : NotifyByte) :
    Bool → ThreadState S T → Prop
  | written : Sends s byte true
      { s with issues := s.issues + 1, pipe := s.pipe ++ [⟨s.issues, byte⟩] }
  | waits {axis : TimerAxis S} {unarmed : Bool} (htimer : TimerOk thread axis)
      (harmed : unarmed = false →
        axis.timerExist (some thread) pendingNotifyTimerId = true) :
      Sends s byte false { s with
        issues := s.issues + 1
        pendingNotifyList := s.pendingNotifyList ++ [⟨s.issues, byte⟩]
        axis := axis
        unarmed := unarmed }

theorem sends (htimer : TimerOk thread s.axis) (byte : NotifyByte) (write : Bool)
    (env : SetTimerEnv) :
    Sends thread s byte write (s.sendByte thread byte write env) := by
  cases write with
  | true => exact .written
  | false =>
      simp only [sendByte, Bool.false_eq_true, if_false, startPendingNotifyTimer]
      split
      next hexist => exact .waits htimer fun _ => hexist
      next =>
        obtain ⟨hset, harmed⟩ := htimer.setOwn env
        exact .waits hset fun hunarmed => harmed (by simpa using hunarmed)

variable (thread) in
/-- **What a step can do.** -/
inductive Steps (s : ThreadState S T) : ThreadAction S T → ThreadState S T → Prop
  | pushTask {task : T} {write : Bool} {env : SetTimerEnv} {s' : ThreadState S T}
      (hsends : Sends thread
        { s with
          tq := s.tq.pushBack ⟨s.issues, task⟩
          pushed := s.pushed ++ [⟨s.issues, task⟩] } .task write s') :
      Steps s (.pushTask task write env) s'
  | notify {cmd : ThreadCommand} {write : Bool} {env : SetTimerEnv}
      {s' : ThreadState S T} (hsends : Sends thread s (.command cmd) write s') :
      Steps s (.notify cmd write env) s'
  | readFails : Steps s (.readCallback false) s
  | onTask {issue : ℕ} {rest : List (Issued NotifyByte)}
      (hpipe : s.pipe = ⟨issue, .task⟩ :: rest) (hexited : s.exited = false) :
      Steps s (.readCallback true) (onTask { s with pipe := rest })
  | onStopAgain {issue : ℕ} {rest : List (Issued NotifyByte)}
      (hpipe : s.pipe = ⟨issue, .command .stop⟩ :: rest)
      (hexited : s.exited = false) (hstopping : s.stopping = true) :
      Steps s (.readCallback true)
        { s with pipe := rest, ran := s.ran ++ [⟨issue, .stop⟩] }
  | onStop {issue : ℕ} {rest : List (Issued NotifyByte)} {tq : TaskQueue T}
      (hpipe : s.pipe = ⟨issue, .command .stop⟩ :: rest)
      (hexited : s.exited = false) (hstopping : s.stopping = false)
      (hnil : tq.taskList = []) (hcounted : tq.Counted) :
      Steps s (.readCallback true)
        { s with
          pipe := rest
          ran := s.ran ++ [⟨issue, .stop⟩]
          stopping := true
          tq := tq
          handed := s.handed ++ s.tq.taskList }
  | onReload {issue : ℕ} {rest : List (Issued NotifyByte)}
      (hpipe : s.pipe = ⟨issue, .command .reload⟩ :: rest)
      (hexited : s.exited = false) :
      Steps s (.readCallback true) (onReload { s with pipe := rest } issue)
  | onExit {issue : ℕ} {rest : List (Issued NotifyByte)}
      (hpipe : s.pipe = ⟨issue, .command .exit⟩ :: rest)
      (hexited : s.exited = false) :
      Steps s (.readCallback true) (onExit { s with pipe := rest } issue)
  | retry {e : ℕ} {eventDel : Bool} {byte : Issued NotifyByte}
      {rest : List (Issued NotifyByte)} {axis : TimerAxis S}
      {running : Option (TimerKey S × ℕ)}
      (hpending : s.pendingNotifyList = byte :: rest) (htimer : TimerOk thread axis)
      (hsame : axis.timerExist (some thread) pendingNotifyTimerId =
        s.axis.timerExist (some thread) pendingNotifyTimerId) :
      Steps s (.timerFires e true eventDel)
        { s with
          axis := axis
          running := running
          pipe := s.pipe ++ [byte]
          pendingNotifyList := rest }
  | timers {a : ThreadAction S T} {axis : TimerAxis S}
      {running : Option (TimerKey S × ℕ)} (ha : ∀ read, a ≠ .readCallback read)
      (htimer : TimerOk thread axis)
      (hsame : s.pendingNotifyList ≠ [] →
        axis.timerExist (some thread) pendingNotifyTimerId =
          s.axis.timerExist (some thread) pendingNotifyTimerId) :
      Steps s a { s with axis := axis, running := running }

omit [DecidableEq S] in
theorem steps_readCallback (h : s.Inv thread) (hexited : s.exited = false)
    {read : Bool} (hstep : s.readCallback read = some s') :
    Steps thread s (.readCallback read) s' := by
  unfold readCallback at hstep
  cases hpipe : s.pipe with
  | nil => simp [hpipe] at hstep
  | cons byte rest =>
      rw [hpipe] at hstep
      cases read with
      | false =>
          simp only [Bool.false_eq_true, if_false, Option.some.injEq] at hstep
          exact hstep ▸ .readFails
      | true =>
          obtain ⟨issue, what⟩ := byte
          simp only [if_true] at hstep
          cases what with
          | task => exact Option.some.inj hstep ▸ .onTask hpipe hexited
          | command cmd =>
              cases cmd with
              | reload => exact Option.some.inj hstep ▸ .onReload hpipe hexited
              | exit => exact Option.some.inj hstep ▸ .onExit hpipe hexited
              | stop =>
                  simp only [ThreadState.onStop] at hstep
                  by_cases hstopping : s.stopping = true
                  · rw [if_pos hstopping] at hstep
                    exact Option.some.inj hstep ▸
                      .onStopAgain hpipe hexited hstopping
                  · obtain ⟨tq', hdrain, hnil, hcounted⟩ :=
                      h.counted.drain (Nat.lt_succ_self s.tq.taskList.length)
                    rw [if_neg hstopping, hdrain, Option.map_some] at hstep
                    exact Option.some.inj hstep ▸ .onStop hpipe hexited
                      (Bool.not_eq_true _ ▸ hstopping) hnil hcounted

theorem onTimer_cases (s : ThreadState S T) (write eventDel : Bool) :
    (s.pendingNotifyList = [] ∧
      s.onTimer thread write eventDel = s.stopPendingNotifyTimer thread eventDel) ∨
    (∃ byte rest, s.pendingNotifyList = byte :: rest ∧ write = true ∧
      s.onTimer thread write eventDel =
        { s with pipe := s.pipe ++ [byte], pendingNotifyList := rest }) ∨
    s.onTimer thread write eventDel = s := by
  unfold onTimer
  split
  next hnil => exact .inl ⟨hnil, rfl⟩
  next byte rest hpending =>
    cases write with
    | true => exact .inr (.inl ⟨byte, rest, hpending, rfl, rfl⟩)
    | false => exact .inr (.inr rfl)

theorem steps_timerFires (h : s.Inv thread) {e : ℕ} {write eventDel : Bool}
    (hstep : s.step thread (.timerFires e write eventDel) = some s') :
    Steps thread s (.timerFires e write eventDel) s' := by
  simp only [step] at hstep
  split_ifs at hstep
  obtain ⟨⟨axis, k, call⟩, hcall, rfl⟩ := Option.map_eq_some_iff.mp hstep
  obtain ⟨htimer, hsame⟩ := h.timer.callTimer hcall
  dsimp only
  split_ifs with hown
  · rcases onTimer_cases { s with axis := axis, running := some (k, call.times) }
      write eventDel with ⟨hnil, htimer'⟩ | ⟨byte, rest, hpending, rfl, htimer'⟩ | htimer'
    · rw [htimer']
      exact .timers (fun _ => nofun) (htimer.killOwn eventDel) fun hne => absurd hnil hne
    · rw [htimer']
      exact .retry hpending htimer hsame
    · rw [htimer']
      exact .timers (fun _ => nofun) htimer fun _ => hsame
  · exact .timers (fun _ => nofun) htimer fun _ => hsame

theorem step_steps (h : s.Inv thread) {a : ThreadAction S T}
    (hstep : s.step thread a = some s') : Steps thread s a s' := by
  cases a with
  | pushTask task write env =>
      rw [← Option.some.inj hstep]
      exact .pushTask (sends (by exact h.timer) .task write env)
  | notify cmd write env =>
      rw [← Option.some.inj hstep]
      refine .notify ?_
      cases cmd with
      | stop => exact sends h.timer _ write env
      | reload => exact sends h.timer _ write env
      | exit => exact sends h.timer _ write env
  | readCallback read =>
      simp only [step] at hstep
      split_ifs at hstep with hbusy
      exact steps_readCallback h (by simp at hbusy; exact hbusy.1) hstep
  | timerFires e write eventDel => exact steps_timerFires h hstep
  | timerReturns =>
      obtain ⟨⟨k, times⟩, -, hreturn⟩ := Option.bind_eq_some_iff.mp hstep
      obtain ⟨axis, hfinish, rfl⟩ := Option.map_eq_some_iff.mp hreturn
      obtain ⟨htimer, hsame⟩ := h.timer.finishTimer hfinish
      exact .timers (fun _ => nofun) htimer fun _ => hsame
  | setTimer env sink timerId data len totalTimes =>
      simp only [step] at hstep
      split_ifs at hstep with hsink
      obtain ⟨htimer, hsame⟩ :=
        h.timer.setOther env hsink timerId data len totalTimes
      rw [← Option.some.inj hstep]
      exact .timers (fun _ => nofun) htimer fun _ => hsame
  | killTimer eventDel sink timerId =>
      simp only [step] at hstep
      split_ifs at hstep with hsink
      obtain ⟨htimer, hsame⟩ := h.timer.killOther eventDel hsink timerId
      rw [← Option.some.inj hstep]
      exact .timers (fun _ => nofun) htimer fun _ => hsame

omit [DecidableEq S] in
theorem Inv.sends {byte : NotifyByte} {write : Bool}
    (htimer : TimerOk thread s.axis)
    (hnotified : s.tq.taskList.length ≤ taskBytes s.pipe +
      taskBytes s.pendingNotifyList + if byte = .task then 1 else 0)
    (harmed : s.unarmed = false → s.pendingNotifyList ≠ [] →
      s.axis.timerExist (some thread) pendingNotifyTimerId = true)
    (hcounted : s.tq.Counted) (horder : s.handed ++ s.tq.taskList = s.pushed)
    (hsends : Sends thread s byte write s') : s'.Inv thread := by
  cases hsends with
  | written =>
      refine ⟨?_, harmed, hcounted, horder, htimer⟩
      simp only [taskBytes_append, taskBytes_cons, taskBytes_nil]
      omega
  | waits htimer' harmed' =>
      refine ⟨?_, fun hunarmed _ => harmed' hunarmed, hcounted, horder, htimer'⟩
      simp only [taskBytes_append, taskBytes_cons, taskBytes_nil]
      omega

omit [DecidableEq S] in
theorem Inv.steps (h : s.Inv thread) {a : ThreadAction S T}
    (hsteps : Steps thread s a s') : s'.Inv thread := by
  cases hsteps with
  | pushTask hsends =>
      refine .sends ?_ ?_ ?_ ?_ ?_ hsends
      · exact h.timer
      · have hnotified := h.notified
        simp only [TaskQueue.pushBack, List.length_append, List.length_singleton,
          if_true]
        omega
      · exact h.armed
      · exact h.counted.pushBack _
      · simp only [TaskQueue.pushBack, ← h.order, List.append_assoc]
  | notify hsends =>
      refine .sends h.timer ?_ h.armed h.counted h.order hsends
      simpa using h.notified
  | readFails => exact h
  | onTask hpipe hexited =>
      have hnotified := h.notified
      rw [hpipe, taskBytes_cons] at hnotified
      refine ⟨?_, h.armed, h.counted.popFront, ?_, h.timer⟩
      · simp only [ThreadState.onTask, TaskQueue.length_popFront]
        simp only [if_true] at hnotified
        omega
      · simp only [ThreadState.onTask, List.append_assoc, TaskQueue.popFront_append,
          h.order]
  | onStopAgain hpipe hexited hstopping =>
      have hnotified := h.notified
      rw [hpipe, taskBytes_cons] at hnotified
      exact ⟨by simpa using hnotified, h.armed, h.counted, h.order, h.timer⟩
  | onStop hpipe hexited hstopping hnil hcounted =>
      refine ⟨by simp [hnil], h.armed, hcounted, ?_, h.timer⟩
      simp only [hnil, List.append_nil, h.order]
  | onReload hpipe hexited =>
      have hnotified := h.notified
      rw [hpipe, taskBytes_cons] at hnotified
      exact ⟨by simpa [ThreadState.onReload] using hnotified, h.armed, h.counted,
        h.order, h.timer⟩
  | onExit hpipe hexited =>
      have hnotified := h.notified
      rw [hpipe, taskBytes_cons] at hnotified
      exact ⟨by simpa [ThreadState.onExit] using hnotified, h.armed, h.counted,
        h.order, h.timer⟩
  | @retry e eventDel byte rest axis running hpending htimer hsame =>
      have hnotified := h.notified
      rw [hpending, taskBytes_cons] at hnotified
      refine ⟨?_, ?_, h.counted, h.order, htimer⟩
      · simp only [taskBytes_append, taskBytes_cons, taskBytes_nil]
        omega
      · intro hunarmed _
        have hne : s.pendingNotifyList ≠ [] := by simp [hpending]
        rw [← h.armed hunarmed hne, ← hsame]
  | timers ha htimer hsame =>
      refine ⟨h.notified, fun hunarmed hne => ?_, h.counted, h.order, htimer⟩
      rw [← h.armed hunarmed hne, ← hsame hne]

theorem Inv.step (h : s.Inv thread) {a : ThreadAction S T}
    (hstep : s.step thread a = some s') : s'.Inv thread :=
  h.steps (step_steps h hstep)

omit [DecidableEq S] in
theorem Steps.grows {a : ThreadAction S T} (hsteps : Steps thread s a s') :
    Grows s a s' := by
  cases hsteps with
  | pushTask hsends =>
      cases hsends with
      | written => exact ⟨List.prefix_rfl, List.prefix_append ..⟩
      | waits => exact ⟨List.prefix_rfl, List.prefix_append ..⟩
  | notify hsends =>
      cases hsends with
      | written => exact ⟨List.prefix_rfl, List.prefix_rfl⟩
      | waits => exact ⟨List.prefix_rfl, List.prefix_rfl⟩
  | onTask hpipe hexited => exact ⟨List.prefix_append .., List.prefix_rfl⟩
  | onStop => exact ⟨List.prefix_append .., List.prefix_rfl⟩
  | _ => exact ⟨List.prefix_rfl, List.prefix_rfl⟩

/-- **No wakeup and no task is lost.**  In every interleaving of producers, full
pipes and the loop of the thread the counts agree, the timer is armed while the list
waits, and the sink is given the tasks in the order they were pushed in, each once. -/
theorem run_queueOk (thread : S) (actions : List (ThreadAction S T)) :
    Along (step thread) (QueueOk thread) Grows init actions :=
  along_of_inv (fun _ h => Inv.queueOk h)
    (fun _ _ _ h hstep => ⟨Inv.step h hstep, (step_steps h hstep).grows⟩) actions
    Inv.init

end ThreadState

end CommonComponent
