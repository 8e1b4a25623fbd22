import CommonComponent.ThreadTasks
import CommonComponent.ThreadTasksIds

/-!
# Every task once, in order and at the right client

Between any threads, whatever the pipes take and the loops do in between: a thread
runs the tasks for it in the order of the calls, each once, and what it has not run
waits in its queue with a byte on its way.  Messages come out of a task as they were
sent.  Data for a client, and its closing, meet the object with the id of the
`ConnGUID` or none, and that is the object the id was given to, as long as the thread
has not used up its ids.

The io schedulers do not look at `io_type`, so the logic of an io thread has to keep to
clients of its own group.
-/

namespace CommonComponent

open LabelledRun ConnCenter

namespace ThreadTask

/-- A call of the thread for a client of its own, which runs at once. -/
def direct (task : ThreadTask) (t : ThreadRef) : Bool :=
  task.sourceThread = t && task.type ≠ .normal

/-- The thread is the one that the task is for. -/
def Addressed {S : Type*} (ctx : ThreadsCtx S) (task : ThreadTask) (t : ThreadRef) : Prop :=
  if task.type = .normal then
    ∃ msgHead msgBody, task.data = ctx.codec.threadTaskData msgHead msgBody
  else
    ∃ guid, task.connGuid = some guid ∧ ThreadType.ofIoType guid.ioType = some t.type ∧
      guid.ioThreadIdx = t.idx

end ThreadTask

/-- What was done for a client was done to the object `connId - 1`, or to none. -/
def TaskOutcome.On (connId : ℤ) : TaskOutcome → Prop
  | .noConn => True
  | .written ref => connId = ref + 1
  | .refused ref => connId = ref + 1
  | .closing ref => connId = ref + 1
  | _ => False

namespace TaskDone

/-- A message was handed on as it was sent. -/
def MessageKept {S : Type*} (ctx : ThreadsCtx S) (d : TaskDone) : Prop :=
  d.task.type = .normal → ∀ msgHead msgBody,
    d.task.data = ctx.codec.threadTaskData msgHead msgBody →
      d.outcome = .dispatched msgHead msgBody

/-- A client task was run for the client of its `ConnGUID`. -/
def ClientMet (d : TaskDone) : Prop :=
  d.task.type ≠ .normal → ∀ guid, d.task.connGuid = some guid → d.outcome.On guid.connId

end TaskDone

namespace AppThread

variable {S : Type*}

def waiting (thread : AppThread S) : List ThreadTask :=
  (thread.queue.handed.drop thread.ran ++ thread.queue.tq.taskList).map (·.what)

def ranTasks (thread : AppThread S) : List ThreadTask := thread.done.map (·.task)

variable (ctx : ThreadsCtx S) (t : ThreadRef)

/-- The tasks for a thread, oldest first, and what has become of them. -/
structure TasksKept (thread : AppThread S) (calls : List ThreadTask) : Prop where
  queue : thread.queue.QueueOk (ctx.sink t)
  queued : thread.ranTasks.filter (!·.direct t) ++ thread.waiting =
    calls.filter (!·.direct t)
  own : thread.ranTasks.filter (·.direct t) = calls.filter (·.direct t)
  addressed : ∀ task ∈ calls, task.Addressed ctx t
  messages : ∀ d ∈ thread.done, d.MessageKept ctx
  clients : thread.conns.connCenter.nextConn ≤ idCount → ∀ d ∈ thread.done, d.ClientMet

structure Inv (thread : AppThread S) (calls : List ThreadTask) : Prop where
  queue : thread.queue.Inv (ctx.sink t)
  ran : thread.ran ≤ thread.queue.handed.length
  pushed : thread.queue.pushed.map (·.what) = calls.filter (!·.direct t)
  queued : thread.ranTasks.filter (!·.direct t) =
    (thread.queue.handed.take thread.ran).map (·.what)
  own : thread.ranTasks.filter (·.direct t) = calls.filter (·.direct t)
  addressed : ∀ task ∈ calls, task.Addressed ctx t
  messages : ∀ d ∈ thread.done, d.MessageKept ctx
  clients : thread.conns.connCenter.nextConn ≤ idCount →
    thread.conns.connCenter.InSequence ∧ ∀ d ∈ thread.done, d.ClientMet

variable {ctx t} {thread : AppThread S} {calls : List ThreadTask}

theorem Inv.init : (init : AppThread S).Inv ctx t [] where
  queue := .init
  ran := le_rfl
  pushed := rfl
  queued := rfl
  own := rfl
  addressed := fun task hmem => by cases hmem
  messages := fun d hmem => by cases hmem
  clients := fun _ => ⟨.empty, fun d hmem => by cases hmem⟩

theorem Inv.tasksKept (h : thread.Inv ctx t calls) : thread.TasksKept ctx t calls where
  queue := h.queue.queueOk
  queued := by
    rw [h.queued, waiting, ← List.map_append, ← List.append_assoc, List.take_append_drop,
      h.queue.order, h.pushed]
  own := h.own
  addressed := h.addressed
  messages := h.messages
  clients := fun hlast => (h.clients hlast).2

/-- The connections go on. -/
theorem Inv.conns (h : thread.Inv ctx t calls) {conns : TcpThread}
    (hseq : Sequenced thread.conns.connCenter conns.connCenter) :
    ({ thread with conns := conns } : AppThread S).Inv ctx t calls where
  queue := h.queue
  ran := h.ran
  pushed := h.pushed
  queued := h.queued
  own := h.own
  addressed := h.addressed
  messages := h.messages
  clients := by
    intro hlast
    obtain ⟨hin, hdone⟩ := h.clients (hseq.le.trans hlast)
    exact ⟨hseq.keeps hlast hin, hdone⟩

/-- The queue goes on, with no new task. -/
theorem Inv.goesOn (h : thread.Inv ctx t calls) {queue : ThreadState S ThreadTask}
    (hqueue : queue.Inv (ctx.sink t)) (hpushed : queue.pushed = thread.queue.pushed)
    (hhanded : thread.queue.handed <+: queue.handed) :
    ({ thread with queue := queue } : AppThread S).Inv ctx t calls where
  queue := hqueue
  ran := h.ran.trans hhanded.length_le
  pushed := by rw [hpushed, h.pushed]
  queued := by
    obtain ⟨later, hlater⟩ := hhanded
    change thread.ranTasks.filter (!·.direct t) = (queue.handed.take thread.ran).map (·.what)
    rw [← hlater, List.take_append_of_le_length h.ran]
    exact h.queued
  own := h.own
  addressed := h.addressed
  messages := h.messages
  clients := h.clients

/-- A task that is not the thread's own is pushed. -/
theorem Inv.pushTask [DecidableEq S] (h : thread.Inv ctx t calls) {task : ThreadTask}
    (hdirect : task.direct t = false) (haddressed : task.Addressed ctx t) (write : Bool)
    (env : SetTimerEnv) :
    ({ thread with queue := thread.queue.pushTask (ctx.sink t) task write env } :
      AppThread S).Inv ctx t (calls ++ [task]) := by
  have hqueue : (thread.queue.pushTask (ctx.sink t) task write env).Inv (ctx.sink t) :=
    ThreadState.Inv.step (a := .pushTask task write env) h.queue rfl
  have hsends : ThreadState.Sends (ctx.sink t)
      { thread.queue with
        tq := thread.queue.tq.pushBack ⟨thread.queue.issues, task⟩
        pushed := thread.queue.pushed ++ [⟨thread.queue.issues, task⟩] } .task write
      (thread.queue.pushTask (ctx.sink t) task write env) :=
    ThreadState.sends (by exact h.queue.timer) .task write env
  obtain ⟨hpushed, hhanded⟩ :
      (thread.queue.pushTask (ctx.sink t) task write env).pushed =
          thread.queue.pushed ++ [⟨thread.queue.issues, task⟩] ∧
        (thread.queue.pushTask (ctx.sink t) task write env).handed =
          thread.queue.handed := by
    generalize thread.queue.pushTask (ctx.sink t) task write env = queue at hsends ⊢
    cases hsends with
    | written => exact ⟨rfl, rfl⟩
    | waits => exact ⟨rfl, rfl⟩
  refine ⟨hqueue, ?_, ?_, ?_, ?_, ?_, h.messages, h.clients⟩
  · rw [hhanded]
    exact h.ran
  · rw [hpushed, List.map_append, h.pushed, List.filter_append]
    simp [hdirect]
  · rw [hhanded]
    exact h.queued
  · rw [List.filter_append, List.filter_singleton, hdirect, cond_false, List.append_nil]
    exact h.own
  · intro later hmem
    obtain hmem | hmem := List.mem_append.mp hmem
    · exact h.addressed later hmem
    · rw [List.mem_singleton.mp hmem]
      exact haddressed

/-- What the connection table has for the id is the object the id was given to. -/
theorem clientOutcome_on {conns : TcpThread} (h : conns.connCenter.InSequence)
    (type : TaskType) (connId : ℤ) (added : Bool) :
    (clientOutcome conns type connId added).On connId := by
  unfold clientOutcome
  cases hget : conns.connCenter.getConnById connId with
  | none => trivial
  | some ref =>
      have hid : connId = ref + 1 := h.entered connId ref hget
      cases type with
      | sendToClient => cases added <;> exact hid
      | closeConn => exact hid
      | normal => exact hid

theorem Inv.runClient (h : thread.Inv ctx t calls) (tcp : TcpThreadCtx) {task : ThreadTask}
    (htype : task.type ≠ .normal) {guid : ConnGUID} (hguid : task.connGuid = some guid)
    (now : ℤ) (added : Bool) :
    Sequenced thread.conns.connCenter
        (thread.runClient tcp task guid.connId now added).conns.connCenter ∧
      (∀ d ∈ (thread.runClient tcp task guid.connId now added).done, d.MessageKept ctx) ∧
      ((thread.runClient tcp task guid.connId now added).conns.connCenter.nextConn ≤ idCount →
        (thread.runClient tcp task guid.connId now added).conns.connCenter.InSequence ∧
          ∀ d ∈ (thread.runClient tcp task guid.connId now added).done, d.ClientMet) := by
  have hseq : Sequenced thread.conns.connCenter
      (thread.runClient tcp task guid.connId now added).conns.connCenter := by
    unfold AppThread.runClient
    dsimp only
    split
    · exact TcpThread.sequenced_sendToClient tcp thread.conns now guid.connId added
    · exact TcpThread.sequenced_closeClient tcp thread.conns guid.connId
  refine ⟨hseq, ?_, ?_⟩
  · intro d hmem
    obtain hmem | hmem := List.mem_append.mp hmem
    · exact h.messages d hmem
    · rw [List.mem_singleton.mp hmem]
      exact fun hnormal => absurd hnormal htype
  · intro hlast
    obtain ⟨hin, hdone⟩ := h.clients (hseq.le.trans hlast)
    refine ⟨hseq.keeps hlast hin, ?_⟩
    intro d hmem
    obtain hmem | hmem := List.mem_append.mp hmem
    · exact hdone d hmem
    · rw [List.mem_singleton.mp hmem]
      intro _ guid' hguid'
      rw [hguid, Option.some.injEq] at hguid'
      subst hguid'
      exact clientOutcome_on hin task.type guid.connId added

/-- The thread serves a client of its own at once. -/
theorem Inv.serves (h : thread.Inv ctx t calls) (tcp : TcpThreadCtx) {task : ThreadTask}
    (hdirect : task.direct t = true) (haddressed : task.Addressed ctx t)
    {guid : ConnGUID} (hguid : task.connGuid = some guid) (now : ℤ) (added : Bool) :
    (thread.runClient tcp task guid.connId now added).Inv ctx t (calls ++ [task]) := by
  have htype : task.type ≠ .normal := by
    intro hnormal
    simp [ThreadTask.direct, hnormal] at hdirect
  obtain ⟨-, hmessages, hclients⟩ := h.runClient tcp htype hguid now added
  have htasks : (thread.runClient tcp task guid.connId now added).ranTasks =
      thread.ranTasks ++ [task] := by
    simp [ranTasks, AppThread.runClient]
  refine ⟨h.queue, h.ran, ?_, ?_, ?_, ?_, hmessages, hclients⟩
  · have hpushed := h.pushed
    rw [← List.append_nil (calls.filter _)] at hpushed
    rw [List.filter_append, List.filter_singleton, hdirect]
    exact hpushed
  · have hqueued := h.queued
    rw [← List.append_nil (thread.ranTasks.filter _)] at hqueued
    rw [htasks, List.filter_append, List.filter_singleton, hdirect]
    exact hqueued
  · rw [htasks, List.filter_append, List.filter_append, h.own]
  · intro later hmem
    obtain hmem | hmem := List.mem_append.mp hmem
    · exact h.addressed later hmem
    · rw [List.mem_singleton.mp hmem]
      exact haddressed

/-- The next task that was handed over. -/
theorem Inv.next (h : thread.Inv ctx t calls) {issued : Issued ThreadTask}
    (hnext : thread.queue.handed[thread.ran]? = some issued) :
    issued.what.direct t = false ∧ issued.what.Addressed ctx t ∧
      thread.ran + 1 ≤ thread.queue.handed.length ∧
      (thread.queue.handed.take (thread.ran + 1)).map (·.what) =
        (thread.queue.handed.take thread.ran).map (·.what) ++ [issued.what] := by
  obtain ⟨hlt, heq⟩ := List.getElem?_eq_some_iff.mp hnext
  have hmem : issued.what ∈ calls.filter (!·.direct t) := by
    rw [← h.pushed, ← h.queue.order]
    apply List.mem_map_of_mem
    exact List.mem_append_left _ (heq ▸ List.getElem_mem hlt)
  obtain ⟨hcall, hdirect⟩ := List.mem_filter.mp hmem
  refine ⟨by simpa using hdirect, h.addressed _ hcall, hlt, ?_⟩
  rw [List.take_add_one, hnext, List.map_append]
  rfl

/-- A task that was handed over has been run, and the thread has noted it. -/
theorem Inv.noted (h : thread.Inv ctx t calls) {issued : Issued ThreadTask}
    (hnext : thread.queue.handed[thread.ran]? = some issued) {thread' : AppThread S}
    (hqueue : thread'.queue = thread.queue) (hran : thread'.ran = thread.ran + 1)
    (htasks : thread'.ranTasks = thread.ranTasks ++ [issued.what])
    (hmessages : ∀ d ∈ thread'.done, d.MessageKept ctx)
    (hclients : thread'.conns.connCenter.nextConn ≤ idCount →
      thread'.conns.connCenter.InSequence ∧ ∀ d ∈ thread'.done, d.ClientMet) :
    thread'.Inv ctx t calls := by
  obtain ⟨hdirect, -, hlt, htake⟩ := h.next hnext
  refine ⟨?_, ?_, ?_, ?_, ?_, h.addressed, hmessages, hclients⟩
  · rw [hqueue]
    exact h.queue
  · rw [hqueue, hran]
    exact hlt
  · rw [hqueue]
    exact h.pushed
  · rw [htasks, hqueue, hran, htake, List.filter_append, h.queued]
    simp [hdirect]
  · rw [htasks, List.filter_append]
    simpa [hdirect] using h.own

end AppThread

namespace AppThreads

variable {S : Type*} {ctx : ThreadsCtx S} {s s' : AppThreads S} {t target : ThreadRef}

def callsTo (s : AppThreads S) (t : ThreadRef) : List ThreadTask :=
  (s.calls.filter (·.1 = t)).map (·.2)

theorem callsTo_append (threads : ThreadRef → AppThread S)
    (calls : List (ThreadRef × ThreadTask)) (target : ThreadRef) (task : ThreadTask) :
    callsTo ⟨threads, calls ++ [(target, task)]⟩ t =
      callsTo ⟨threads, calls⟩ t ++ if target = t then [task] else [] := by
  unfold callsTo
  rw [List.filter_append, List.map_append]
  congr 1
  by_cases heq : target = t <;> simp [heq]

def Inv (ctx : ThreadsCtx S) (s : AppThreads S) : Prop :=
  ∀ t, (s.threads t).Inv ctx t (s.callsTo t)

/-- One thread goes on. -/
theorem Inv.set (h : s.Inv ctx) {thread : AppThread S}
    (hthread : thread.Inv ctx t (s.callsTo t)) : (s.set t thread).Inv ctx := by
  intro t'
  change (Function.update s.threads t thread t').Inv ctx t' (s.callsTo t')
  by_cases heq : t' = t
  · subst heq
    rw [Function.update_self]
    exact hthread
  · rw [Function.update_of_ne heq]
    exact h t'

/-- One thread goes on with a call for it. -/
theorem Inv.call (h : s.Inv ctx) {thread : AppThread S} {task : ThreadTask}
    (hthread : thread.Inv ctx t (s.callsTo t ++ [task])) :
    Inv ctx ⟨Function.update s.threads t thread, s.calls ++ [(t, task)]⟩ := by
  intro t'
  rw [callsTo_append]
  change (Function.update s.threads t thread t').Inv ctx t' (s.callsTo t' ++ _)
  by_cases heq : t = t'
  · subst heq
    rw [Function.update_self, if_pos rfl]
    exact hthread
  · rw [Function.update_of_ne (Ne.symm heq), if_neg heq, List.append_nil]
    exact h t'

theorem Inv.init : (init : AppThreads S).Inv ctx := fun _ => .init

theorem getThread_eq {type : ThreadType} {idx : ℤ}
    (h : getThread ctx type idx = some target) : target.type = type ∧ idx = target.idx := by
  obtain ⟨hrange, heq⟩ := Option.ite_none_right_eq_some.mp h
  rw [← Option.some.inj heq]
  exact ⟨rfl, (Int.toNat_of_nonneg hrange.1).symm⟩

theorem isIo_of_ofIoType {ioType : ℕ} {type : ThreadType}
    (h : ThreadType.ofIoType ioType = some type) : type.isIo = true := by
  unfold ThreadType.ofIoType at h
  split at h <;> cases h <;> rfl

theorem addressed_client {task : ThreadTask} (htype : task.type ≠ .normal)
    {guid : ConnGUID} (hguid : task.connGuid = some guid)
    (hgroup : ThreadType.ofIoType guid.ioType = some t.type)
    (hidx : guid.ioThreadIdx = t.idx) : task.Addressed ctx t := by
  unfold ThreadTask.Addressed
  rw [if_neg htype]
  exact ⟨guid, hguid, hgroup, hidx⟩

theorem messageKept_dispatched (ctx : ThreadsCtx S) (task : ThreadTask) :
    TaskDone.MessageKept ctx ⟨task,
      match ctx.codec.decodeMsg task.data with
      | .ok (msgHead, msgBody) => .dispatched msgHead msgBody
      | .error _ => .dropped⟩ := by
  intro _ msgHead msgBody hdata
  dsimp only at hdata ⊢
  rw [hdata, MsgCodec.threadTaskData_eq, MsgCodec.decodeMsg_encodedMsg]

variable [DecidableEq S]

theorem Inv.push (h : s.Inv ctx) {task : ThreadTask} (hdirect : task.direct target = false)
    (haddressed : task.Addressed ctx target) (write : Bool) (env : SetTimerEnv) :
    (s.push ctx target task write env).Inv ctx :=
  h.call ((h target).pushTask hdirect haddressed write env)

/-- The logic of an io thread calls for a client of the group of that thread. -/
theorem Inv.ioClient (h : s.Inv ctx) {task : ThreadTask} (htype : task.type ≠ .normal)
    (hsource : task.sourceThread = t) {guid : ConnGUID} (hguid : task.connGuid = some guid)
    (hgroup : ThreadType.ofIoType guid.ioType = some t.type) {now : ℤ}
    {added write : Bool} {env : SetTimerEnv}
    (hcall : s.ioClient ctx t task guid now added write env = some s') : s'.Inv ctx := by
  obtain ⟨target, htarget, heq⟩ := Option.map_eq_some_iff.mp hcall
  obtain ⟨hsame, hidx⟩ := getThread_eq htarget
  subst heq
  split_ifs with hself
  · subst hself
    have hdirect : task.direct target = true := by
      simp [ThreadTask.direct, hsource, htype]
    exact h.call ((h target).serves (ctx.tcp target.type) hdirect
      (addressed_client htype hguid hgroup hidx) hguid now added)
  · have hdirect : task.direct target = false := by
      simp [ThreadTask.direct, hsource, Ne.symm hself]
    rw [← hsame] at hgroup
    exact h.push hdirect (addressed_client htype hguid hgroup hidx) write env

/-- That of a work thread. -/
theorem Inv.workClient (h : s.Inv ctx) {task : ThreadTask} (htype : task.type ≠ .normal)
    (hsource : task.sourceThread = t) (hwork : t.type.isIo = false) {guid : ConnGUID}
    (hguid : task.connGuid = some guid) (write : Bool) (env : SetTimerEnv) :
    (s.workClient ctx task guid write env).Inv ctx := by
  unfold AppThreads.workClient
  split
  · exact h
  · next type hgroup =>
      split
      · exact h
      · next target htarget =>
          obtain ⟨hsame, hidx⟩ := getThread_eq htarget
          rw [← hsame] at hgroup
          have hio := isIo_of_ofIoType hgroup
          have hdirect : task.direct target = false := by
            have hne : t ≠ target := by
              rintro rfl
              rw [hwork] at hio
              cases hio
            simp [ThreadTask.direct, hsource, hne]
          exact h.push hdirect (addressed_client htype hguid hgroup hidx) write env

theorem Inv.client (h : s.Inv ctx) {task : ThreadTask} (htype : task.type ≠ .normal)
    (hsource : task.sourceThread = t) {guid : ConnGUID} (hguid : task.connGuid = some guid)
    (hown : t.type.isIo = true → ThreadType.ofIoType guid.ioType = some t.type) {now : ℤ}
    {added write : Bool} {env : SetTimerEnv}
    (hcall : s.client ctx t task guid now added write env = some s') : s'.Inv ctx := by
  unfold AppThreads.client at hcall
  by_cases hio : t.type.isIo
  · rw [if_pos hio] at hcall
    obtain ⟨-, hcall⟩ := Option.ite_none_left_eq_some.mp hcall
    exact h.ioClient htype hsource hguid (hown hio) hcall
  · rw [if_neg hio] at hcall
    rw [← Option.some.inj hcall]
    exact h.workClient htype hsource (by simpa using hio) hguid write env

omit [DecidableEq S] in
theorem set_set (s : AppThreads S) (thread thread' : AppThread S) :
    (s.set t thread).set t thread' = s.set t thread' := by
  simp [AppThreads.set]

omit [DecidableEq S] in
theorem set_threads (s : AppThreads S) (thread : AppThread S) :
    (s.set t thread).threads t = thread :=
  Function.update_self ..

/-- A task for a client, which goes to the scheduler of the io thread. -/
theorem onTask_client (s : AppThreads S) (thread : AppThread S) {task : ThreadTask}
    (htype : task.type ≠ .normal) {guid : ConnGUID} (hguid : task.connGuid = some guid)
    (hio : t.type.isIo = true) {now : ℤ} {added write : Bool} {env : SetTimerEnv} :
    (s.set t thread).onTask ctx t task now added write env =
      (getThread ctx t.type guid.ioThreadIdx).map fun target =>
        if target = t then
          s.set t (thread.runClient (ctx.tcp t.type) task guid.connId now added)
        else
          (s.set t (thread.note task .passedOn)).push ctx target
            { task with sourceThread := t } write env := by
  unfold onTask
  split
  · next hnormal => exact absurd hnormal htype
  · rw [if_pos hio, hguid, Option.bind_some]
    simp only [set_set, set_threads]

/-- The sink runs the next task that it was handed. -/
theorem Inv.runTask (h : s.Inv ctx) {issued : Issued ThreadTask}
    (hnext : (s.threads t).queue.handed[(s.threads t).ran]? = some issued) {now : ℤ}
    {added write : Bool} {env : SetTimerEnv}
    (htask : (s.set t { s.threads t with ran := (s.threads t).ran + 1 }).onTask ctx t
      issued.what now added write env = some s') : s'.Inv ctx := by
  obtain ⟨-, haddressed, -, -⟩ := (h t).next hnext
  by_cases hnormal : issued.what.type = .normal
  · simp only [onTask, hnormal, set_set, set_threads, Option.some.injEq] at htask
    subst htask
    apply h.set
    refine (h t).noted hnext rfl rfl ?_ ?_ ?_
    · simp [AppThread.ranTasks, AppThread.note]
    · intro d hmem
      obtain hmem | hmem := List.mem_append.mp hmem
      · exact (h t).messages d hmem
      · rw [List.mem_singleton.mp hmem]
        exact messageKept_dispatched ctx issued.what
    · intro hlast
      obtain ⟨hin, hdone⟩ := (h t).clients hlast
      refine ⟨hin, ?_⟩
      intro d hmem
      obtain hmem | hmem := List.mem_append.mp hmem
      · exact hdone d hmem
      · rw [List.mem_singleton.mp hmem]
        exact fun hclient => absurd hnormal hclient
  · unfold ThreadTask.Addressed at haddressed
    rw [if_neg hnormal] at haddressed
    obtain ⟨guid, hguid, hgroup, hidx⟩ := haddressed
    have hio := isIo_of_ofIoType hgroup
    rw [onTask_client _ _ hnormal hguid hio] at htask
    obtain ⟨target, htarget, heq⟩ := Option.map_eq_some_iff.mp htask
    obtain ⟨hsame, hidx'⟩ := getThread_eq htarget
    have htarget' : target = t := by
      obtain ⟨type, idx⟩ := target
      obtain ⟨type', idx'⟩ := t
      simp only [ThreadRef.mk.injEq] at hsame hidx hidx' ⊢
      exact ⟨hsame, by omega⟩
    rw [if_pos htarget'] at heq
    subst heq
    apply h.set
    obtain ⟨-, hmessages, hclients⟩ :=
      (h t).runClient (ctx.tcp t.type) hnormal hguid now added
    refine (h t).noted hnext rfl rfl ?_ hmessages hclients
    simp [AppThread.ranTasks, AppThread.runClient]

/-- The logic of an io thread keeps to clients of its own group. -/
def OwnGroup (_ : AppThreads S) : AppAction S → Prop
  | .sendToClient t guid .. =>
      t.type.isIo = true → ThreadType.ofIoType guid.ioType = some t.type
  | .closeClient t guid .. =>
      t.type.isIo = true → ThreadType.ofIoType guid.ioType = some t.type
  | _ => True

theorem Inv.step (h : s.Inv ctx) {a : AppAction S} (hown : s.OwnGroup a)
    (hstep : s.step ctx a = some s') : s'.Inv ctx := by
  cases a with
  | conns t a =>
      obtain ⟨-, hstep⟩ := Option.ite_none_right_eq_some.mp hstep
      obtain ⟨conns, hconns, rfl⟩ := Option.map_eq_some_iff.mp hstep
      exact h.set ((h t).conns (TcpThread.sequenced_step hconns))
  | queue t a =>
      obtain ⟨hguard, hstep⟩ := Option.ite_none_right_eq_some.mp hstep
      obtain ⟨queue, hqueue, rfl⟩ := Option.map_eq_some_iff.mp hstep
      have hsteps := ThreadState.step_steps (h t).queue hqueue
      have hpushed : queue.pushed = (s.threads t).queue.pushed := by
        cases hsteps with
        | pushTask => simp [ofQueue] at hguard
        | notify hsends => cases hsends <;> rfl
        | _ => rfl
      exact h.set ((h t).goesOn ((h t).queue.steps hsteps) hpushed hsteps.grows.1)
  | runTask t now added write env =>
      obtain ⟨-, hstep⟩ := Option.ite_none_right_eq_some.mp hstep
      obtain ⟨issued, hnext, htask⟩ := Option.bind_eq_some_iff.mp hstep
      exact h.runTask hnext htask
  | sendToClient t guid data now added write env =>
      obtain ⟨-, hcall⟩ := Option.ite_none_right_eq_some.mp hstep
      refine h.client ?_ ?_ ?_ hown hcall
      · simp
      · rfl
      · rfl
  | closeClient t guid write env =>
      obtain ⟨-, hcall⟩ := Option.ite_none_right_eq_some.mp hstep
      refine h.client ?_ ?_ ?_ hown hcall
      · simp
      · rfl
      · rfl
  | sendToThread t type idx guid msgHead msgBody write env =>
      obtain ⟨-, hcall⟩ := Option.ite_none_right_eq_some.mp hstep
      rw [← Option.some.inj hcall]
      apply h.push
      · simp [ThreadTask.direct]
      · exact ⟨msgHead, msgBody, rfl⟩

/-- **Every task once, in order and at the right client**, at every point of every
interleaving. -/
theorem run_tasksKept (ctx : ThreadsCtx S) {actions : List (AppAction S)}
    (hown : Guarded (step ctx) OwnGroup init actions) :
    Along (step ctx) (fun s => ∀ t, (s.threads t).TasksKept ctx t (s.callsTo t))
      (fun _ _ _ => True) init actions := by
  refine Guarded.along_of_inv (fun s (h : Inv ctx s) t => (h t).tasksKept) ?_ .init hown
  intro s a s' h hown hstep
  exact ⟨h.step hown hstep, trivial⟩

instance ownGroupDecidable {S : Type*} (s : AppThreads S) (a : AppAction S) :
    Decidable (s.OwnGroup a) :=
  match a with
  | .sendToClient t guid _ _ _ _ _ =>
      inferInstanceAs
        (Decidable (t.type.isIo = true → ThreadType.ofIoType guid.ioType = some t.type))
  | .closeClient t guid _ _ =>
      inferInstanceAs
        (Decidable (t.type.isIo = true → ThreadType.ofIoType guid.ioType = some t.type))
  | .conns _ _ => .isTrue trivial
  | .queue _ _ => .isTrue trivial
  | .runTask _ _ _ _ _ => .isTrue trivial
  | .sendToThread _ _ _ _ _ _ _ _ => .isTrue trivial

/-- Two io threads and a work thread. -/
def smallApp : ThreadsCtx ThreadRef where
  threadCount := fun type =>
    match type with
    | .tcp => 2
    | .work => 1
    | _ => 0
  tcp := fun _ => ⟨false, 1, ⟨60, 10, 100⟩⟩
  codec := .ofLimit ⟨16, true⟩ crc32Bitwise
  sink := fun t => t

/-- A client is greeted by its own thread; the work thread gets a message about it and
answers, and so does the other io thread. -/
def answeredByThree : List (AppAction ThreadRef) :=
  [.conns ⟨.tcp, 0⟩ (.onAccept false 0 ⟨true, true⟩ 0 7),
    .sendToClient ⟨.tcp, 0⟩ ⟨0, 0, 1⟩ [1] 0 true true ⟨true, true, true, true⟩,
    .conns ⟨.tcp, 0⟩ .logicReturns,
    .sendToThread ⟨.tcp, 0⟩ .work 0 (some ⟨0, 0, 1⟩) ⟨7, 9⟩ [2] true
      ⟨true, true, true, true⟩,
    .queue ⟨.work, 0⟩ (.readCallback true),
    .runTask ⟨.work, 0⟩ 0 true true ⟨true, true, true, true⟩,
    .sendToClient ⟨.work, 0⟩ ⟨0, 0, 1⟩ [3] 0 true true ⟨true, true, true, true⟩,
    .sendToClient ⟨.tcp, 1⟩ ⟨0, 0, 1⟩ [4] 0 true true ⟨true, true, true, true⟩,
    .queue ⟨.tcp, 0⟩ (.readCallback true),
    .runTask ⟨.tcp, 0⟩ 0 true true ⟨true, true, true, true⟩,
    .queue ⟨.tcp, 0⟩ (.readCallback true),
    .runTask ⟨.tcp, 0⟩ 0 true true ⟨true, true, true, true⟩]

theorem run_tasksKept_answeredByThree :
    (run (step smallApp) init answeredByThree).map
        (fun s => (s.threads ⟨.tcp, 0⟩).done.map fun d => (d.task.data, d.outcome)) =
      some [([1], .written 0), ([3], .written 0), ([4], .written 0)] ∧
    Along (step smallApp)
      (fun s => ∀ t, (s.threads t).TasksKept smallApp t (s.callsTo t))
      (fun _ _ _ => True) init answeredByThree :=
  ⟨by decide +kernel, run_tasksKept smallApp (by decide +kernel)⟩

end AppThreads

end CommonComponent
