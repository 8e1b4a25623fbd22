import CommonComponent.ThreadTasks

/-!
# The main thread

`AppLauncher` runs an event loop of its own.  When the configuration file changes,
`NotifyReload` has the global thread reload first, waits for it, and then tells the
others.  A stop signal is passed on to all threads, once; from then on a timer asks
whether all sinks can exit, and if so `NotifyExitAndJoin` ends one group behind the
other.  A callback of the main thread is a list of calls here, and the other threads
go on between any two of them.
-/

namespace CommonComponent

/-- A call that is left of the callback the main thread is in. -/
inductive MainCall
  | clearReloadFinish
  | notify (cmd : ThreadCommand) (t : ThreadRef)
  | awaitReload
  | join (t : ThreadRef)
  | breakLoop
deriving DecidableEq

def globalThread : ThreadRef := ⟨.global, 0⟩

def ThreadType.rank : ThreadType → ℕ
  | .global => 0
  | .work => 1
  | .burden => 2
  | .tcp => 3
  | .protoTcp => 4
  | .web => 5

namespace ThreadsCtx

variable {S : Type*} (ctx : ThreadsCtx S)

def groupThreads (type : ThreadType) : List ThreadRef :=
  (List.range (ctx.threadCount type)).map (ThreadRef.mk type)

def otherGroups : List ThreadType := [.work, .burden, .tcp, .protoTcp, .web]

def threadsOf (groups : List ThreadType) : List ThreadRef :=
  groups.flatMap ctx.groupThreads

def allThreads : List ThreadRef := ctx.threadsOf (.global :: otherGroups)

/-- `AppFrame::NotifyReload`. -/
def notifyReload : List MainCall :=
  (if 0 < ctx.threadCount .global then
    [.clearReloadFinish] ++ (ctx.groupThreads .global).map (.notify .reload) ++ [.awaitReload]
  else []) ++ (ctx.threadsOf otherGroups).map (.notify .reload)

def notifyStop : List MainCall := ctx.allThreads.map (.notify .stop)

def exitGroups (groups : List ThreadType) : List MainCall :=
  groups.flatMap fun type =>
    (ctx.groupThreads type).map (.notify .exit) ++ (ctx.groupThreads type).map .join

/-- `AppFrame::NotifyExitAndJoin`, and what `OnExitCheck` does behind it. -/
def exitCalls : List MainCall := ctx.exitGroups (.global :: otherGroups) ++ [.breakLoop]

end ThreadsCtx

/-- The threads and what the main thread is about; `reloads` counts the reloads of the
configuration. -/
structure MainRun (S : Type*) where
  app : AppThreads S
  todo : List MainCall
  stopping : Bool
  ended : Bool
  reloads : ℕ

/-- `write` and `env` belong to a notification. -/
inductive MainAction (S : Type*) where
  | threads (a : AppAction S)
  | proceed (write : Bool) (env : SetTimerEnv)
  | confChanged
  | stopSignal
  | exitCheck (canExit : Bool)

namespace MainRun

variable {S : Type*} [DecidableEq S] (ctx : ThreadsCtx S)

def init : MainRun S where
  app := .init
  todo := []
  stopping := false
  ended := false
  reloads := 0

omit [DecidableEq S] in
def queue (s : MainRun S) (t : ThreadRef) : ThreadState S ThreadTask :=
  (s.app.threads t).queue

omit [DecidableEq S] in
def setQueue (s : MainRun S) (t : ThreadRef) (queue : ThreadState S ThreadTask) :
    MainRun S :=
  { s with app := s.app.set t { s.app.threads t with queue := queue } }

/-- The commands come from the main thread. -/
def ofThreads : AppAction S → Bool
  | .queue _ (.notify ..) => false
  | _ => true

/-- `rest` is what is left behind the call.  Waiting for the reload and for the end of a
thread has no step before it is over. -/
def call (s : MainRun S) (rest : List MainCall) (write : Bool) (env : SetTimerEnv) :
    MainCall → Option (MainRun S)
  | .clearReloadFinish =>
      some { s.setQueue globalThread { s.queue globalThread with reloadFinished := false } with
        todo := rest }
  | .notify cmd t =>
      some { s.setQueue t ((s.queue t).notify (ctx.sink t) cmd write env) with todo := rest }
  | .awaitReload =>
      if (s.queue globalThread).reloadFinished then some { s with todo := rest } else none
  | .join t => if (s.queue t).exited then some { s with todo := rest } else none
  | .breakLoop => some { s with todo := rest, ended := true }

/-- A callback of the main thread is entered from its event loop. -/
def enter (s : MainRun S) (s' : MainRun S) : Option (MainRun S) :=
  if s.todo = [] ∧ s.ended = false then some s' else none

def step (s : MainRun S) : MainAction S → Option (MainRun S)
  | .threads a =>
      if ofThreads a then (s.app.step ctx a).map fun app => { s with app := app } else none
  | .proceed write env =>
      match s.todo with
      | [] => none
      | c :: rest => s.call ctx rest write env c
  | .confChanged => s.enter { s with todo := ctx.notifyReload, reloads := s.reloads + 1 }
  | .stopSignal =>
      s.enter (if s.stopping then s else { s with todo := ctx.notifyStop, stopping := true })
  | .exitCheck canExit =>
      if s.stopping then
        s.enter (if canExit then { s with todo := ctx.exitCalls } else s)
      else none

end MainRun

end CommonComponent
