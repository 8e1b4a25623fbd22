import CommonComponent.ProtoLogic
import CommonComponent.ProtoMsgCodecRoundTrip
import CommonComponent.TcpThread
import CommonComponent.ThreadTaskQueue

/-!
# Tasks between threads

A thread talks to the others through their queues.  Messages go to a thread of a
group as tasks; data for a client, and the call that closes it, go to the thread
that `io_thread_idx` of its `ConnGUID` names.  An io thread that is asked for one of
its own clients acts at once.

A thread hands its tasks to the sink in the order of its queue, and the sink runs one
behind the other.  Which thread of a group gets a message is the choice of the
scheduler.  Each thread is a `ThreadState` with, where it has connections, a
`TcpThread`.
-/

namespace CommonComponent

/-- `THREAD_TYPE_…`: the groups of threads. -/
inductive ThreadType
  | global
  | work
  | burden
  | tcp
  | protoTcp
  | web
deriving DecidableEq

structure ThreadRef where
  type : ThreadType
  idx : ℕ
deriving DecidableEq

namespace ThreadType

/-- The threads with connections. -/
def isIo : ThreadType → Bool
  | .tcp => true
  | .protoTcp => true
  | .web => true
  | _ => false

/-- The schedulers that have a `SendToClient`. -/
def servesClients (type : ThreadType) : Bool := type.isIo || type = .work

/-- The groups that a scheduler has a `SendTo…Thread` for. -/
def reaches : ThreadType → ThreadType → Bool
  | .global, target => target ≠ .global
  | .work, _ => true
  | .burden, target => target = .global || target = .burden
  | io, target => target = .global || target = .work || target = io

/-- The group of an `io_type`; there is none for UDP. -/
def ofIoType : ℕ → Option ThreadType
  | 0 => some .tcp
  | 1 => some .protoTcp
  | 2 => some .web
  | _ => none

end ThreadType

inductive TaskType
  | sendToClient
  | closeConn
  | normal
deriving DecidableEq

structure ThreadTask where
  type : TaskType
  sourceThread : ThreadRef
  connGuid : Option ConnGUID
  data : Bytes
deriving DecidableEq

/-- What a task has come to: for a client, with the connection object; for a message,
what the handler is given. -/
inductive TaskOutcome
  | noConn
  | written (conn : ℕ)
  | refused (conn : ℕ)
  | closing (conn : ℕ)
  | passedOn
  | dispatched (msgHead : MsgHead) (msgBody : Bytes)
  | dropped
deriving DecidableEq

structure TaskDone where
  task : ThreadTask
  outcome : TaskOutcome
deriving DecidableEq

/-- The groups, which null pointers leave without threads; what their threads are
configured with; and the sink that each thread is for its own timer. -/
structure ThreadsCtx (S : Type*) where
  threadCount : ThreadType → ℕ
  tcp : ThreadType → TcpThreadCtx
  codec : MsgCodec
  sink : ThreadRef → S

/-- `ran` counts the tasks of `queue.handed` that the sink has run; `done` has what
came of them, and of the calls that the thread made for its own clients. -/
structure AppThread (S : Type*) where
  queue : ThreadState S ThreadTask
  ran : ℕ
  conns : TcpThread
  done : List TaskDone

/-- The threads, and every call for one of them, oldest first. -/
structure AppThreads (S : Type*) where
  threads : ThreadRef → AppThread S
  calls : List (ThreadRef × ThreadTask)

namespace AppThread

variable {S : Type*}

def init : AppThread S where
  queue := .init
  ran := 0
  conns := .init
  done := []

/-- Every task that the sink was handed has been run. -/
def caughtUp (thread : AppThread S) : Bool := thread.ran = thread.queue.handed.length

/-- `GetConnByID`, and what the call then does. -/
def clientOutcome (conns : TcpThread) (type : TaskType) (connId : ℤ) (added : Bool) :
    TaskOutcome :=
  match conns.connCenter.getConnById connId with
  | none => .noConn
  | some ref =>
      match type with
      | .sendToClient => if added then .written ref else .refused ref
      | _ => .closing ref

/-- The call for a client of the thread itself. -/
def runClient (tcp : TcpThreadCtx) (thread : AppThread S) (task : ThreadTask)
    (connId now : ℤ) (added : Bool) : AppThread S :=
  { thread with
    conns :=
      match task.type with
      | .sendToClient => thread.conns.sendToClient tcp now connId added
      | _ => thread.conns.closeClient tcp connId
    done := thread.done ++ [⟨task, clientOutcome thread.conns task.type connId added⟩] }

def note (thread : AppThread S) (task : ThreadTask) (outcome : TaskOutcome) :
    AppThread S :=
  { thread with done := thread.done ++ [⟨task, outcome⟩] }

end AppThread

/-- `write` and `env` belong to the `PushTask` of the call, `now` and `added` to the
connection of the client. -/
inductive AppAction (S : Type*) where
  | conns (t : ThreadRef) (a : TcpAction)
  | queue (t : ThreadRef) (a : ThreadAction S ThreadTask)
  | runTask (t : ThreadRef) (now : ℤ) (added write : Bool) (env : SetTimerEnv)
  | sendToClient (t : ThreadRef) (guid : ConnGUID) (data : Bytes) (now : ℤ)
      (added write : Bool) (env : SetTimerEnv)
  | closeClient (t : ThreadRef) (guid : ConnGUID) (write : Bool) (env : SetTimerEnv)
  | sendToThread (t : ThreadRef) (type : ThreadType) (idx : ℕ) (guid : Option ConnGUID)
      (msgHead : MsgHead) (msgBody : Bytes) (write : Bool) (env : SetTimerEnv)

namespace AppThreads

variable {S : Type*} [DecidableEq S] (ctx : ThreadsCtx S)

omit [DecidableEq S] in
/-- `ThreadGroup::GetThread`. -/
def getThread (type : ThreadType) (idx : ℤ) : Option ThreadRef :=
  if 0 ≤ idx ∧ idx < ctx.threadCount type then some ⟨type, idx.toNat⟩ else none

def init : AppThreads S where
  threads := fun _ => .init
  calls := []

omit [DecidableEq S] in
def set (s : AppThreads S) (t : ThreadRef) (thread : AppThread S) : AppThreads S :=
  { s with threads := Function.update s.threads t thread }

/-- `PushTask` on another thread, or on the own one. -/
def push (s : AppThreads S) (target : ThreadRef) (task : ThreadTask) (write : Bool)
    (env : SetTimerEnv) : AppThreads S where
  threads :=
    Function.update s.threads target
      { s.threads target with
        queue := (s.threads target).queue.pushTask (ctx.sink target) task write env }
  calls := s.calls ++ [(target, task)]

/-- `SendToClient` or `CloseClient` of an io thread's scheduler.  An index without a
thread is a null pointer there. -/
def ioClient (s : AppThreads S) (t : ThreadRef) (task : ThreadTask) (guid : ConnGUID)
    (now : ℤ) (added write : Bool) (env : SetTimerEnv) : Option (AppThreads S) :=
  (getThread ctx t.type guid.ioThreadIdx).map fun target =>
    if target = t then
      { s.set t ((s.threads t).runClient (ctx.tcp t.type) task guid.connId now added) with
        calls := s.calls ++ [(t, task)] }
    else s.push ctx target task write env

/-- The same of a work thread's scheduler. -/
def workClient (s : AppThreads S) (task : ThreadTask) (guid : ConnGUID) (write : Bool)
    (env : SetTimerEnv) : AppThreads S :=
  match ThreadType.ofIoType guid.ioType with
  | none => s
  | some type =>
      match getThread ctx type guid.ioThreadIdx with
      | none => s
      | some target => s.push ctx target task write env

def client (s : AppThreads S) (t : ThreadRef) (task : ThreadTask) (guid : ConnGUID)
    (now : ℤ) (added write : Bool) (env : SetTimerEnv) : Option (AppThreads S) :=
  if t.type.isIo then
    if (s.threads t).conns.fault || !(s.threads t).conns.inLogic then none
    else s.ioClient ctx t task guid now added write env
  else some (s.workClient ctx task guid write env)

/-- `OnTask` of the sinks; the task is the next one that was handed over. -/
def onTask (s : AppThreads S) (t : ThreadRef) (task : ThreadTask) (now : ℤ)
    (added write : Bool) (env : SetTimerEnv) : Option (AppThreads S) :=
  match task.type with
  | .normal =>
      some (s.set t ((s.threads t).note task
        (match ctx.codec.decodeMsg task.data with
        | .ok (msgHead, msgBody) => .dispatched msgHead msgBody
        | .error _ => .dropped)))
  | _ =>
      if t.type.isIo then
        task.connGuid.bind fun guid =>
          (getThread ctx t.type guid.ioThreadIdx).map fun target =>
            if target = t then
              s.set t ((s.threads t).runClient (ctx.tcp t.type) task guid.connId now added)
            else
              (s.set t ((s.threads t).note task .passedOn)).push ctx target
                { task with sourceThread := t } write env
      else some (s.set t ((s.threads t).note task .dropped))

/-- The calls of the logic have actions of their own. -/
def ofConns : TcpAction → Bool
  | .sendToClient .. => false
  | .closeClient _ => false
  | _ => true

omit [DecidableEq S] in
def ofQueue : ThreadAction S ThreadTask → Bool
  | .pushTask .. => false
  | _ => true

omit [DecidableEq S] in
/-- The loop calls `ReadCallback` or `OnTimer`. -/
def ofLoop : ThreadAction S ThreadTask → Bool
  | .readCallback _ => true
  | .timerFires .. => true
  | _ => false

/-- An event of the loop waits until the tasks handed over have been run. -/
def step (s : AppThreads S) : AppAction S → Option (AppThreads S)
  | .conns t a =>
      if t.type.isIo && ofConns a &&
          (!(s.threads t).conns.idle || (s.threads t).caughtUp) then
        ((s.threads t).conns.step (ctx.tcp t.type) a).map fun conns =>
          s.set t { s.threads t with conns := conns }
      else none
  | .queue t a =>
      if ofQueue a &&
          (!ofLoop a || (s.threads t).conns.idle && (s.threads t).caughtUp) then
        ((s.threads t).queue.step (ctx.sink t) a).map fun queue =>
          s.set t { s.threads t with queue := queue }
      else none
  | .runTask t now added write env =>
      if (s.threads t).conns.idle && !(s.threads t).conns.fault then
        ((s.threads t).queue.handed[(s.threads t).ran]?).bind fun issued =>
          (s.set t { s.threads t with ran := (s.threads t).ran + 1 }).onTask ctx t
            issued.what now added write env
      else none
  | .sendToClient t guid data now added write env =>
      if t.type.servesClients then
        s.client ctx t ⟨.sendToClient, t, some guid, data⟩ guid now added write env
      else none
  | .closeClient t guid write env =>
      if t.type.servesClients then
        s.client ctx t ⟨.closeConn, t, some guid, []⟩ guid 0 true write env
      else none
  | .sendToThread t type idx guid msgHead msgBody write env =>
      if t.type.reaches type && idx < ctx.threadCount type then
        some (s.push ctx ⟨type, idx⟩
          ⟨.normal, t, guid, ctx.codec.threadTaskData msgHead msgBody⟩ write env)
      else none

end AppThreads

end CommonComponent
