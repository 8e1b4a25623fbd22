import CommonComponent.MainThread

/-!
# Reloading and exiting, across all threads

Whatever the pipes take and the threads do in between: each reload of the
configuration, the stop and the exit reach every thread once.  No thread reloads
before the global thread has done so, a thread ends only when it has been told to
stop and the groups before its own have ended, and the main thread ends behind all
of them.

The main thread has one callback at a time, and so the calls that are left of it say
how far it is.
-/

namespace CommonComponent

open LabelledRun

namespace ThreadState

variable {S T : Type*} {thread : S} {s s' : ThreadState S T}

def commandBytes (cmd : ThreadCommand) (bytes : List (Issued NotifyByte)) : ℕ :=
  bytes.countP fun byte => byte.what = .command cmd

/-- Bytes of a command that the loop has not read. -/
def onTheWay (s : ThreadState S T) (cmd : ThreadCommand) : ℕ :=
  commandBytes cmd s.pipe + commandBytes cmd s.pendingNotifyList

def ranCount (s : ThreadState S T) (cmd : ThreadCommand) : ℕ :=
  s.ran.countP fun issued => issued.what = cmd

@[simp] theorem commandBytes_append (cmd : ThreadCommand)
    (bytes bytes' : List (Issued NotifyByte)) :
    commandBytes cmd (bytes ++ bytes') = commandBytes cmd bytes + commandBytes cmd bytes' :=
  List.countP_append

@[simp] theorem commandBytes_nil (cmd : ThreadCommand) : commandBytes cmd [] = 0 := rfl

@[simp] theorem commandBytes_cons (cmd : ThreadCommand) (byte : Issued NotifyByte)
    (bytes : List (Issued NotifyByte)) :
    commandBytes cmd (byte :: bytes) =
      commandBytes cmd bytes + if byte.what = .command cmd then 1 else 0 := by
  simp [commandBytes, List.countP_cons]

/-- The thread has been told the command. -/
structure Told (cmd : ThreadCommand) (s s' : ThreadState S T) : Prop where
  sent : ∀ cmd', s'.onTheWay cmd' = s.onTheWay cmd' + if cmd' = cmd then 1 else 0
  ran : s'.ran = s.ran
  exited : s'.exited = s.exited
  reloadFinished : s'.reloadFinished = s.reloadFinished

/-- The thread has gone on: it has not lost a command, ends only with an exit, and
has finished no reload that it has not read. -/
structure Goes (s s' : ThreadState S T) : Prop where
  sent : ∀ cmd, s'.onTheWay cmd + s'.ranCount cmd = s.onTheWay cmd + s.ranCount cmd
  ran : ∀ cmd, s.ranCount cmd ≤ s'.ranCount cmd
  exited : s.exited = true → s'.exited = true
  exits : s'.exited = true → s.exited = true ∨ 0 < s'.ranCount .exit
  reloads : s'.reloadFinished = true →
    s.reloadFinished = true ∨ s.ranCount .reload < s'.ranCount .reload

theorem Goes.refl (s : ThreadState S T) : Goes s s where
  sent := fun _ => rfl
  ran := fun _ => le_rfl
  exited := fun h => h
  exits := .inl
  reloads := .inl

theorem Sends.told {cmd : ThreadCommand} {write : Bool}
    (hsends : Sends thread s (.command cmd) write s') : Told cmd s s' := by
  cases hsends with
  | written =>
      refine ⟨fun cmd' => ?_, rfl, rfl, rfl⟩
      simp only [onTheWay, commandBytes_append, commandBytes_cons, commandBytes_nil,
        NotifyByte.command.injEq, eq_comm (a := cmd)]
      omega
  | waits =>
      refine ⟨fun cmd' => ?_, rfl, rfl, rfl⟩
      simp only [onTheWay, commandBytes_append, commandBytes_cons, commandBytes_nil,
        NotifyByte.command.injEq, eq_comm (a := cmd)]
      omega

def notMain : ThreadAction S T → Bool
  | .notify .. => false
  | _ => true

theorem Sends.goes {write : Bool} (hsends : Sends thread s .task write s') : Goes s s' := by
  cases hsends with
  | written =>
      refine ⟨fun cmd => ?_, fun _ => le_rfl, fun h => h, .inl, .inl⟩
      simp [onTheWay, ranCount]
  | waits =>
      refine ⟨fun cmd => ?_, fun _ => le_rfl, fun h => h, .inl, .inl⟩
      simp [onTheWay, ranCount]

theorem ranCount_read (s : ThreadState S T) (issue : ℕ) (cmd cmd' : ThreadCommand) :
    (s.ran ++ [Issued.mk issue cmd]).countP (fun issued => issued.what = cmd') =
      s.ranCount cmd' + if cmd = cmd' then 1 else 0 := by
  simp [ranCount, List.countP_cons]

/-- A command has been read from the pipe. -/
theorem Goes.of_read {issue : ℕ} {cmd : ThreadCommand} {rest : List (Issued NotifyByte)}
    (hpipe : s.pipe = ⟨issue, .command cmd⟩ :: rest) (hrest : s'.pipe = rest)
    (hpending : s'.pendingNotifyList = s.pendingNotifyList)
    (hran : s'.ran = s.ran ++ [⟨issue, cmd⟩])
    (hexited : s'.exited = (s.exited || cmd = .exit))
    (hfinished : s'.reloadFinished = (s.reloadFinished || cmd = .reload)) : Goes s s' := by
  have hcount : ∀ cmd', s'.ranCount cmd' = s.ranCount cmd' + if cmd = cmd' then 1 else 0 := by
    intro cmd'
    rw [← ranCount_read s issue cmd cmd', ← hran]
    rfl
  refine ⟨fun cmd' => ?_, fun cmd' => ?_, fun h => ?_, fun h => ?_, fun h => ?_⟩
  · rw [hcount]
    simp only [onTheWay, hpipe, hrest, hpending, commandBytes_cons, NotifyByte.command.injEq]
    omega
  · rw [hcount]
    omega
  · simp [hexited, h]
  · rw [hexited, Bool.or_eq_true, decide_eq_true_eq] at h
    refine h.imp_right fun hcmd => ?_
    rw [hcount, if_pos hcmd]
    omega
  · rw [hfinished, Bool.or_eq_true, decide_eq_true_eq] at h
    refine h.imp_right fun hcmd => ?_
    rw [hcount, if_pos hcmd]
    omega

theorem Steps.goes {a : ThreadAction S T} (ha : notMain a = true)
    (hsteps : Steps thread s a s') : Goes s s' := by
  cases hsteps with
  | pushTask hsends =>
      have hgoes := hsends.goes
      exact ⟨hgoes.sent, hgoes.ran, hgoes.exited, hgoes.exits, hgoes.reloads⟩
  | notify => cases ha
  | readFails => exact .refl s
  | onTask hpipe =>
      refine ⟨fun cmd => ?_, fun _ => le_rfl, fun h => h, .inl, .inl⟩
      simp [onTheWay, ranCount, ThreadState.onTask, hpipe]
  | onStopAgain hpipe => exact .of_read hpipe rfl rfl rfl (by simp) (by simp)
  | onStop hpipe => exact .of_read hpipe rfl rfl rfl (by simp) (by simp)
  | onReload hpipe =>
      exact .of_read hpipe rfl rfl rfl (by simp [ThreadState.onReload])
        (by simp [ThreadState.onReload])
  | onExit hpipe =>
      exact .of_read hpipe rfl rfl rfl (by simp [ThreadState.onExit])
        (by simp [ThreadState.onExit])
  | retry hpending =>
      refine ⟨fun cmd => ?_, fun _ => le_rfl, fun h => h, .inl, .inl⟩
      simp only [onTheWay, ranCount, hpending, commandBytes_append, commandBytes_cons,
        commandBytes_nil]
      omega
  | timers => exact ⟨fun _ => rfl, fun _ => le_rfl, fun h => h, .inl, .inl⟩

end ThreadState
namespace AppThreads

variable {S : Type*} [DecidableEq S] {ctx : ThreadsCtx S} {s s' : AppThreads S}
  {t : ThreadRef}

/-- Each queue makes one step of its own or none. -/
def QueuesMove (ctx : ThreadsCtx S) (s s' : AppThreads S) : Prop :=
  ∀ t, (s'.threads t).queue = (s.threads t).queue ∨
    ∃ a, ThreadState.notMain a = true ∧
      (s.threads t).queue.step (ctx.sink t) a = some (s'.threads t).queue

omit [DecidableEq S] in
theorem queue_set {thread : AppThread S} (hsame : thread.queue = (s.threads t).queue)
    (t' : ThreadRef) : ((s.set t thread).threads t').queue = (s.threads t').queue := by
  change (Function.update s.threads t thread t').queue = _
  by_cases heq : t' = t
  · subst heq
    rw [Function.update_self, hsame]
  · rw [Function.update_of_ne heq]

theorem QueuesMove.set {thread : AppThread S}
    (hsame : thread.queue = (s.threads t).queue) : QueuesMove ctx s (s.set t thread) :=
  fun t' => .inl (queue_set hsame t')

/-- A task is pushed; `thread` says what else becomes of the caller. -/
theorem QueuesMove.push {caller : AppThreads S}
    (hsame : ∀ t', (caller.threads t').queue = (s.threads t').queue) (target : ThreadRef)
    (task : ThreadTask) (write : Bool) (env : SetTimerEnv) :
    QueuesMove ctx s (caller.push ctx target task write env) := by
  intro t'
  change (Function.update caller.threads target _ t').queue = _ ∨
    ∃ a, _ ∧ _ = some (Function.update caller.threads target _ t').queue
  by_cases heq : t' = target
  · subst heq
    rw [Function.update_self, ← hsame]
    exact .inr ⟨.pushTask task write env, rfl, rfl⟩
  · rw [Function.update_of_ne heq]
    exact .inl (hsame t')

theorem QueuesMove.client {task : ThreadTask} {guid : ConnGUID} {now : ℤ}
    {added write : Bool} {env : SetTimerEnv}
    (hcall : s.client ctx t task guid now added write env = some s') :
    QueuesMove ctx s s' := by
  unfold AppThreads.client at hcall
  split_ifs at hcall
  · obtain ⟨target, -, rfl⟩ := Option.map_eq_some_iff.mp hcall
    split_ifs
    · exact fun t' => .inl (queue_set (by rfl) t')
    · exact .push (fun _ => rfl) target task write env
  · rw [← Option.some.inj hcall]
    unfold workClient
    split
    · exact fun _ => .inl rfl
    · split
      · exact fun _ => .inl rfl
      · exact .push (fun _ => rfl) _ task write env

theorem QueuesMove.onTask {caller : AppThreads S}
    (hsame : ∀ t', (caller.threads t').queue = (s.threads t').queue) {task : ThreadTask}
    {now : ℤ} {added write : Bool} {env : SetTimerEnv}
    (htask : caller.onTask ctx t task now added write env = some s') :
    QueuesMove ctx s s' := by
  have hset : ∀ thread : AppThread S, thread.queue = (caller.threads t).queue →
      QueuesMove ctx s (caller.set t thread) :=
    fun thread hqueue t' => .inl ((queue_set hqueue t').trans (hsame t'))
  unfold AppThreads.onTask at htask
  split at htask
  · rw [← Option.some.inj htask]
    exact hset _ rfl
  · split_ifs at htask
    · obtain ⟨guid, -, hcall⟩ := Option.bind_eq_some_iff.mp htask
      obtain ⟨target, -, rfl⟩ := Option.map_eq_some_iff.mp hcall
      split_ifs
      · exact hset _ rfl
      · exact .push (fun t' => (queue_set (by rfl) t').trans (hsame t')) target _ write env
    · rw [← Option.some.inj htask]
      exact hset _ rfl

/-- Without a command from the main thread. -/
theorem queuesMove_step {a : AppAction S} (ha : MainRun.ofThreads a = true)
    (hstep : s.step ctx a = some s') : QueuesMove ctx s s' := by
  cases a with
  | conns t a =>
      obtain ⟨-, hstep⟩ := Option.ite_none_right_eq_some.mp hstep
      obtain ⟨conns, -, rfl⟩ := Option.map_eq_some_iff.mp hstep
      exact .set rfl
  | queue t a =>
      obtain ⟨-, hstep⟩ := Option.ite_none_right_eq_some.mp hstep
      obtain ⟨queue, hqueue, rfl⟩ := Option.map_eq_some_iff.mp hstep
      have hmain : ThreadState.notMain a = true := by
        cases a with
        | notify => cases ha
        | _ => rfl
      intro t'
      change (Function.update s.threads t _ t').queue = _ ∨
        ∃ a, _ ∧ _ = some (Function.update s.threads t _ t').queue
      by_cases heq : t' = t
      · subst heq
        rw [Function.update_self]
        exact .inr ⟨a, hmain, hqueue⟩
      · rw [Function.update_of_ne heq]
        exact .inl rfl
  | runTask t now added write env =>
      obtain ⟨-, hstep⟩ := Option.ite_none_right_eq_some.mp hstep
      obtain ⟨issued, -, htask⟩ := Option.bind_eq_some_iff.mp hstep
      exact .onTask (fun t' => queue_set (by rfl) t') htask
  | sendToClient t guid data now added write env =>
      obtain ⟨-, hcall⟩ := Option.ite_none_right_eq_some.mp hstep
      exact .client hcall
  | closeClient t guid write env =>
      obtain ⟨-, hcall⟩ := Option.ite_none_right_eq_some.mp hstep
      exact .client hcall
  | sendToThread t type idx guid msgHead msgBody write env =>
      obtain ⟨-, hcall⟩ := Option.ite_none_right_eq_some.mp hstep
      rw [← Option.some.inj hcall]
      exact .push (fun _ => rfl) _ _ write env

end AppThreads

/-- In the calls of the way out a thread is told to exit behind the end of the groups
before its own, and nothing is behind the end of the loop. -/
def MainCall.InOrder : MainCall → MainCall → Prop
  | .breakLoop, _ => False
  | .notify .exit t, .join t' => t.type.rank ≤ t'.type.rank
  | _, _ => True

namespace ThreadsCtx

variable {S : Type*} {ctx : ThreadsCtx S} {t : ThreadRef} {type : ThreadType}

theorem mem_groupThreads :
    t ∈ ctx.groupThreads type ↔ t.type = type ∧ t.idx < ctx.threadCount type := by
  obtain ⟨type', idx⟩ := t
  simp only [groupThreads, List.mem_map, List.mem_range, ThreadRef.mk.injEq]
  constructor
  · rintro ⟨idx', hlt, rfl, rfl⟩
    exact ⟨rfl, hlt⟩
  · rintro ⟨rfl, hlt⟩
    exact ⟨idx, hlt, rfl, rfl⟩

theorem mem_threadsOf {groups : List ThreadType} :
    t ∈ ctx.threadsOf groups ↔ t.type ∈ groups ∧ t.idx < ctx.threadCount t.type := by
  simp only [threadsOf, List.mem_flatMap, mem_groupThreads]
  constructor
  · rintro ⟨type, hmem, rfl, hlt⟩
    exact ⟨hmem, hlt⟩
  · rintro ⟨hmem, hlt⟩
    exact ⟨t.type, hmem, rfl, hlt⟩

theorem mem_allThreads : t ∈ ctx.allThreads ↔ t.idx < ctx.threadCount t.type := by
  rw [allThreads, mem_threadsOf, and_iff_right_iff_imp]
  intro _
  cases t.type <;> simp [otherGroups]

theorem mem_others : t ∈ ctx.threadsOf otherGroups ↔
    t ∈ ctx.allThreads ∧ t.type ≠ .global := by
  rw [mem_threadsOf, mem_allThreads, and_comm]
  refine and_congr_right fun _ => ?_
  cases t.type <;> simp [otherGroups]

theorem nodup_threadsOf {groups : List ThreadType} (hgroups : groups.Nodup) :
    (ctx.threadsOf groups).Nodup := by
  refine List.nodup_flatMap.mpr ⟨fun type _ => ?_, ?_⟩
  · exact List.nodup_range.map fun idx idx' heq => (ThreadRef.mk.inj heq).2
  · refine hgroups.imp fun {type type'} hne t hmem hmem' => hne ?_
    rw [← (mem_groupThreads.mp hmem).1, (mem_groupThreads.mp hmem').1]

theorem count_allThreads (ctx : ThreadsCtx S) (t : ThreadRef) :
    ctx.allThreads.count t = if t ∈ ctx.allThreads then 1 else 0 :=
  (nodup_threadsOf (by decide)).count

theorem count_notify (cmd cmd' : ThreadCommand) (threads : List ThreadRef) (t : ThreadRef) :
    (threads.map (MainCall.notify cmd)).count (.notify cmd' t) =
      if cmd' = cmd then threads.count t else 0 := by
  split_ifs with heq
  · subst heq
    exact List.count_map_of_injective _ _ (fun _ _ h => (MainCall.notify.inj h).2) _
  · rw [List.count_eq_zero, List.mem_map]
    rintro ⟨t', -, h⟩
    exact heq (MainCall.notify.inj h).1.symm

theorem count_exitGroups (ctx : ThreadsCtx S) (groups : List ThreadType)
    (cmd : ThreadCommand) (t : ThreadRef) :
    (ctx.exitGroups groups).count (.notify cmd t) =
      if cmd = .exit then (ctx.threadsOf groups).count t else 0 := by
  induction groups with
  | nil => simp [exitGroups, threadsOf]
  | cons type groups ih =>
      have hjoins : ((ctx.groupThreads type).map MainCall.join).count (.notify cmd t) = 0 := by
        simp [List.count_eq_zero]
      simp only [exitGroups, threadsOf] at ih
      simp only [exitGroups, threadsOf, List.flatMap_cons, List.count_append, count_notify,
        hjoins, ih]
      split_ifs <;> rfl

theorem mem_exitGroups {groups : List ThreadType} {c : MainCall}
    (hmem : c ∈ ctx.exitGroups groups) :
    ∃ t ∈ ctx.threadsOf groups, c = .notify .exit t ∨ c = .join t := by
  obtain ⟨type, htype, hc⟩ := List.mem_flatMap.mp hmem
  obtain hc | hc := List.mem_append.mp hc
  · obtain ⟨t, ht, rfl⟩ := List.mem_map.mp hc
    exact ⟨t, List.mem_flatMap.mpr ⟨type, htype, ht⟩, .inl rfl⟩
  · obtain ⟨t, ht, rfl⟩ := List.mem_map.mp hc
    exact ⟨t, List.mem_flatMap.mpr ⟨type, htype, ht⟩, .inr rfl⟩

theorem mem_exitCalls_join (h : t ∈ ctx.allThreads) : .join t ∈ ctx.exitCalls := by
  obtain ⟨type, htype, ht⟩ := List.mem_flatMap.mp h
  apply List.mem_append_left
  refine List.mem_flatMap.mpr ⟨type, htype, List.mem_append_right _ ?_⟩
  exact List.mem_map_of_mem ht

theorem count_notifyReload (cmd : ThreadCommand) (t : ThreadRef) :
    ctx.notifyReload.count (.notify cmd t) =
      if cmd = .reload then ctx.allThreads.count t else 0 := by
  have hall : ctx.allThreads =
      ctx.groupThreads .global ++ ctx.threadsOf otherGroups := List.flatMap_cons
  have hempty : ¬0 < ctx.threadCount .global → ctx.groupThreads .global = [] := by
    intro hnone
    simp [groupThreads, show ctx.threadCount .global = 0 by omega]
  unfold notifyReload
  rw [List.count_append, count_notify, hall]
  by_cases hthere : 0 < ctx.threadCount .global
  · rw [if_pos hthere, List.count_append, List.count_append, count_notify]
    simp only [List.count_singleton, List.count_append]
    split_ifs <;> simp_all
  · rw [if_neg hthere, hempty hthere]
    simp

theorem count_notifyStop (cmd : ThreadCommand) (t : ThreadRef) :
    ctx.notifyStop.count (.notify cmd t) =
      if cmd = .stop then ctx.allThreads.count t else 0 :=
  count_notify ..

theorem count_exitCalls (ctx : ThreadsCtx S) (cmd : ThreadCommand) (t : ThreadRef) :
    ctx.exitCalls.count (.notify cmd t) =
      if cmd = .exit then ctx.allThreads.count t else 0 := by
  unfold exitCalls
  rw [List.count_append, count_exitGroups]
  simp [allThreads]

theorem pairwise_exitGroups {groups : List ThreadType}
    (hgroups : groups.Pairwise fun type type' => type.rank ≤ type'.rank) :
    (ctx.exitGroups groups).Pairwise MainCall.InOrder := by
  refine List.pairwise_flatMap.mpr ⟨fun type _ => ?_, ?_⟩
  · refine List.pairwise_append.mpr ⟨?_, ?_, ?_⟩
    · exact List.pairwise_map.mpr (List.pairwise_of_forall fun _ _ => trivial)
    · exact List.pairwise_map.mpr (List.pairwise_of_forall fun _ _ => trivial)
    · intro c hc c' hc'
      obtain ⟨t, ht, rfl⟩ := List.mem_map.mp hc
      obtain ⟨t', ht', rfl⟩ := List.mem_map.mp hc'
      change t.type.rank ≤ t'.type.rank
      rw [(mem_groupThreads.mp ht).1, (mem_groupThreads.mp ht').1]
  · refine hgroups.imp fun {type type'} hle c hc c' hc' => ?_
    obtain hc | hc := List.mem_append.mp hc
    · obtain ⟨t, ht, rfl⟩ := List.mem_map.mp hc
      obtain hc' | hc' := List.mem_append.mp hc'
      · obtain ⟨t', -, rfl⟩ := List.mem_map.mp hc'
        trivial
      · obtain ⟨t', ht', rfl⟩ := List.mem_map.mp hc'
        change t.type.rank ≤ t'.type.rank
        rw [(mem_groupThreads.mp ht).1, (mem_groupThreads.mp ht').1]
        exact hle
    · obtain ⟨t, -, rfl⟩ := List.mem_map.mp hc
      trivial

theorem pairwise_exitCalls (ctx : ThreadsCtx S) :
    ctx.exitCalls.Pairwise MainCall.InOrder := by
  refine List.pairwise_append.mpr ⟨pairwise_exitGroups (by decide), ?_, ?_⟩
  · exact List.pairwise_singleton ..
  · intro c hc c' hc'
    rw [List.mem_singleton.mp hc']
    obtain ⟨t, -, rfl | rfl⟩ := mem_exitGroups hc
    · trivial
    · trivial

end ThreadsCtx

namespace MainRun

variable {S : Type*} {ctx : ThreadsCtx S} {s s' : MainRun S} {t : ThreadRef}

def exiting (s : MainRun S) : Bool := s.ended || .breakLoop ∈ s.todo

/-- How often the main thread has issued a command. -/
def issued (s : MainRun S) : ThreadCommand → ℕ
  | .stop => s.stopping.toNat
  | .reload => s.reloads
  | .exit => s.exiting.toNat

/-- The commands that a thread has run or is going to run. -/
def sent (s : MainRun S) (t : ThreadRef) (cmd : ThreadCommand) : ℕ :=
  (s.queue t).onTheWay cmd + (s.queue t).ranCount cmd

/-- Each command goes to each thread once; no thread is ahead of the global thread with
a reload; a thread ends behind a stop and the groups before its own, and the main thread
behind all. -/
structure MainOk (ctx : ThreadsCtx S) (s : MainRun S) : Prop where
  sentOnce : ∀ t cmd, s.sent t cmd + s.todo.count (.notify cmd t) =
    if t ∈ ctx.allThreads then s.issued cmd else 0
  reloadOrder : 0 < ctx.threadCount .global → ∀ t,
    (s.queue t).ranCount .reload ≤ (s.queue globalThread).ranCount .reload
  stopped : ∀ t, (s.queue t).exited = true → s.sent t .stop = 1
  exitOrder : ∀ t, (s.queue t).exited = true → ∀ t' ∈ ctx.allThreads,
    t'.type.rank < t.type.rank → (s.queue t').exited = true
  ended : s.ended = true → ∀ t ∈ ctx.allThreads, (s.queue t).exited = true

/-- The calls of `NotifyReload` up to the end of the wait. -/
def reloadHead : List MainCall :=
  [.clearReloadFinish, .notify .reload globalThread, .awaitReload]

/-- The calls behind them. -/
def reloadTail (ctx : ThreadsCtx S) : List MainCall :=
  (ctx.threadsOf ThreadsCtx.otherGroups).map (.notify .reload)

/-- How far the main thread and the global thread are with a reload. -/
inductive ReloadPhase (ctx : ThreadsCtx S) (todo : List MainCall)
    (global : ThreadState S ThreadTask) : Prop
  | calm (hcalm : ∀ c ∈ todo, c ∉ reloadHead) (hread : global.onTheWay .reload = 0)
  | begun (htodo : todo = reloadHead ++ reloadTail ctx)
      (hread : global.onTheWay .reload = 0)
  | cleared (htodo : todo = reloadHead.drop 1 ++ reloadTail ctx)
      (hread : global.onTheWay .reload = 0) (hflag : global.reloadFinished = false)
  | waiting (htodo : todo = reloadHead.drop 2 ++ reloadTail ctx)
      (hread : global.onTheWay .reload ≤ 1)
      (hflag : global.reloadFinished = true → global.onTheWay .reload = 0)

/-- The main thread is on its way out, and the threads it has waited for have ended. -/
structure ExitPhase (ctx : ThreadsCtx S) (s : MainRun S) : Prop where
  stopping : s.stopping = true
  split : ∃ done, ctx.exitCalls = done ++ s.todo ∧
    ∀ t, .join t ∈ done → (s.queue t).exited = true
  ended : s.ended = true → s.todo = []

structure Inv (ctx : ThreadsCtx S) (s : MainRun S) : Prop where
  queues : ∀ t, (s.queue t).Inv (ctx.sink t)
  sentOnce : ∀ t cmd, s.sent t cmd + s.todo.count (.notify cmd t) =
    if t ∈ ctx.allThreads then s.issued cmd else 0
  exits : ∀ t, (s.queue t).exited = true → 0 < (s.queue t).ranCount .exit
  reload : 0 < ctx.threadCount .global →
    ReloadPhase ctx s.todo (s.queue globalThread)
  exit : s.exiting = true → s.ExitPhase ctx

/-! ## What the invariant says -/

theorem mem_reloadTail {c : MainCall} (hmem : c ∈ reloadTail ctx) :
    ∃ t, t ∈ ctx.allThreads ∧ t.type ≠ .global ∧ c = .notify .reload t := by
  obtain ⟨t, ht, rfl⟩ := List.mem_map.mp hmem
  obtain ⟨hall, hglobal⟩ := ThreadsCtx.mem_others.mp ht
  exact ⟨t, hall, hglobal, rfl⟩

theorem not_mem_reloadTail (ctx : ThreadsCtx S) :
    .notify .reload globalThread ∉ reloadTail ctx := by
  intro hmem
  obtain ⟨t, -, hglobal, heq⟩ := mem_reloadTail hmem
  rw [← (MainCall.notify.inj heq).2] at hglobal
  exact hglobal rfl

theorem globalThread_mem (hthere : 0 < ctx.threadCount .global) :
    globalThread ∈ ctx.allThreads :=
  ThreadsCtx.mem_allThreads.mpr hthere

theorem eq_globalThread (hone : ctx.threadCount .global ≤ 1) (hall : t ∈ ctx.allThreads)
    (htype : t.type = .global) : t = globalThread := by
  have hlt := ThreadsCtx.mem_allThreads.mp hall
  obtain ⟨type, idx⟩ := t
  dsimp only at htype hlt
  subst htype
  rw [show idx = 0 by omega, globalThread]

/-- The global thread has read every reload, or there is one that it has not read and
that the others have not been told of. -/
theorem ReloadPhase.caughtUp {todo : List MainCall} {global : ThreadState S ThreadTask}
    (h : ReloadPhase ctx todo global) :
    global.onTheWay .reload + todo.count (.notify .reload globalThread) = 0 ∨
      global.onTheWay .reload + todo.count (.notify .reload globalThread) ≤ 1 ∧
        ∀ c ∈ reloadTail ctx, c ∈ todo := by
  have hnone := List.count_eq_zero.mpr (not_mem_reloadTail ctx)
  cases h with
  | calm hcalm hread =>
      have hcount : todo.count (.notify .reload globalThread) = 0 := by
        refine List.count_eq_zero.mpr fun hmem => hcalm _ hmem ?_
        simp [reloadHead]
      exact .inl (by rw [hread, hcount])
  | begun htodo hread =>
      refine .inr ⟨?_, fun c hc => htodo ▸ List.mem_append_right _ hc⟩
      rw [hread, htodo, List.count_append, hnone]
      decide
  | cleared htodo hread _ =>
      refine .inr ⟨?_, fun c hc => htodo ▸ List.mem_append_right _ hc⟩
      rw [hread, htodo, List.count_append, hnone]
      decide
  | waiting htodo hread _ =>
      refine .inr ⟨?_, fun c hc => htodo ▸ List.mem_append_right _ hc⟩
      rw [htodo, List.count_append, hnone]
      simpa [reloadHead] using hread

theorem Inv.reloadOrder (h : s.Inv ctx) (hone : ctx.threadCount .global ≤ 1)
    (hthere : 0 < ctx.threadCount .global) (t : ThreadRef) :
    (s.queue t).ranCount .reload ≤ (s.queue globalThread).ranCount .reload := by
  by_cases hself : t = globalThread
  · rw [hself]
  have hglobal := h.sentOnce globalThread .reload
  rw [if_pos (globalThread_mem hthere)] at hglobal
  have hother := h.sentOnce t .reload
  unfold sent issued at hglobal hother
  by_cases hall : t ∈ ctx.allThreads
  · rw [if_pos hall] at hother
    obtain hread | ⟨hread, htail⟩ := (h.reload hthere).caughtUp
    · omega
    · have hmem : .notify .reload t ∈ s.todo := by
        apply htail
        refine List.mem_map_of_mem (ThreadsCtx.mem_others.mpr ⟨hall, fun htype => ?_⟩)
        exact hself (eq_globalThread hone hall htype)
      have hcount := List.count_pos_iff.mpr hmem
      omega
  · rw [if_neg hall] at hother
    omega

/-- A thread that has ended belongs to the way out, and nothing is left to tell it. -/
theorem Inv.exited (h : s.Inv ctx) (hexited : (s.queue t).exited = true) :
    t ∈ ctx.allThreads ∧ s.exiting = true ∧ .notify .exit t ∉ s.todo := by
  have hran := h.exits t hexited
  have hsent := h.sentOnce t .exit
  unfold sent at hsent
  have hle := Bool.toNat_le s.exiting
  have hall : t ∈ ctx.allThreads := by
    by_contra hnot
    rw [if_neg hnot] at hsent
    omega
  rw [if_pos hall, issued] at hsent
  refine ⟨hall, ?_, fun hmem => ?_⟩
  · exact Bool.toNat_eq_one.mp (by omega)
  · have hcount := List.count_pos_iff.mpr hmem
    omega

theorem Inv.stopped (h : s.Inv ctx) (hexited : (s.queue t).exited = true) :
    s.sent t .stop = 1 := by
  obtain ⟨hall, hexiting, -⟩ := h.exited hexited
  obtain ⟨done, hsplit, -⟩ := (h.exit hexiting).split
  have hsent := h.sentOnce t .stop
  have hcount := ThreadsCtx.count_exitCalls ctx .stop t
  rw [hsplit, List.count_append, if_neg (by decide)] at hcount
  rw [if_pos hall, issued, (h.exit hexiting).stopping, Bool.toNat_true] at hsent
  omega

theorem Inv.exitOrder (h : s.Inv ctx) (hexited : (s.queue t).exited = true)
    {t' : ThreadRef} (hall' : t' ∈ ctx.allThreads) (hrank : t'.type.rank < t.type.rank) :
    (s.queue t').exited = true := by
  obtain ⟨hall, hexiting, htold⟩ := h.exited hexited
  obtain ⟨done, hsplit, hjoined⟩ := (h.exit hexiting).split
  have hnotify : .notify .exit t ∈ done := by
    have hcount := ThreadsCtx.count_exitCalls ctx .exit t
    rw [if_pos rfl, ThreadsCtx.count_allThreads, if_pos hall] at hcount
    have hmem : .notify .exit t ∈ ctx.exitCalls := List.count_pos_iff.mp (by omega)
    rw [hsplit] at hmem
    exact (List.mem_append.mp hmem).resolve_right htold
  have hjoin := ThreadsCtx.mem_exitCalls_join hall'
  rw [hsplit] at hjoin
  obtain hdone | hleft := List.mem_append.mp hjoin
  · exact hjoined t' hdone
  · have hpairwise := ThreadsCtx.pairwise_exitCalls ctx
    rw [hsplit] at hpairwise
    have hle : t.type.rank ≤ t'.type.rank :=
      (List.pairwise_append.mp hpairwise).2.2 _ hnotify _ hleft
    omega

theorem Inv.ended (h : s.Inv ctx) (hended : s.ended = true) (hall : t ∈ ctx.allThreads) :
    (s.queue t).exited = true := by
  have hexiting : s.exiting = true := by
    rw [exiting, hended, Bool.true_or]
  obtain ⟨done, hsplit, hjoined⟩ := (h.exit hexiting).split
  rw [(h.exit hexiting).ended hended, List.append_nil] at hsplit
  exact hjoined t (hsplit ▸ ThreadsCtx.mem_exitCalls_join hall)

theorem Inv.mainOk (h : s.Inv ctx) (hone : ctx.threadCount .global ≤ 1) :
    s.MainOk ctx where
  sentOnce := h.sentOnce
  reloadOrder := h.reloadOrder hone
  stopped := fun _ => h.stopped
  exitOrder := fun _ hexited _ => h.exitOrder hexited
  ended := fun hended _ => h.ended hended

/-! ## What keeps it -/

theorem Inv.init : (init : MainRun S).Inv ctx where
  queues := fun _ => .init
  sentOnce := by
    intro t cmd
    have hnone : (MainRun.init : MainRun S).issued cmd = 0 := by cases cmd <;> rfl
    rw [hnone, ite_self]
    rfl
  exits := fun _ hexited => nomatch hexited
  reload := fun _ => .calm (fun c hc => nomatch hc) rfl
  exit := fun hexiting => nomatch hexiting

theorem ReloadPhase.goes {todo : List MainCall} {global global' : ThreadState S ThreadTask}
    (h : ReloadPhase ctx todo global) (hgoes : global.Goes global') :
    ReloadPhase ctx todo global' := by
  have hsent := hgoes.sent .reload
  have hran := hgoes.ran .reload
  cases h with
  | calm hcalm hread => exact .calm hcalm (by omega)
  | begun htodo hread => exact .begun htodo (by omega)
  | cleared htodo hread hflag =>
      refine .cleared htodo (by omega) ?_
      by_contra hset
      obtain hset | hmore := hgoes.reloads (by simpa using hset)
      · rw [hflag] at hset
        cases hset
      · omega
  | waiting htodo hread hflag =>
      refine .waiting htodo (by omega) fun hset => ?_
      obtain hset | hmore := hgoes.reloads hset
      · have hnone := hflag hset
        omega
      · omega

/-- The threads go on. -/
theorem Inv.goes (h : s.Inv ctx) {app : AppThreads S}
    (hgoes : ∀ t, (s.queue t).Goes (app.threads t).queue)
    (hqueues : ∀ t, (app.threads t).queue.Inv (ctx.sink t)) :
    Inv ctx { s with app := app } where
  queues := hqueues
  sentOnce := by
    intro t cmd
    exact (congrArg (· + _) ((hgoes t).sent cmd)).trans (h.sentOnce t cmd)
  exits := by
    intro t hexited
    have hran := (hgoes t).ran .exit
    obtain hexited | hexit := (hgoes t).exits hexited
    · exact (h.exits t hexited).trans_le hran
    · exact hexit
  reload := fun hthere => (h.reload hthere).goes (hgoes globalThread)
  exit := by
    intro hexiting
    have hexit := h.exit hexiting
    obtain ⟨done, hsplit, hjoined⟩ := hexit.split
    exact ⟨hexit.stopping, ⟨done, hsplit, fun t hmem => (hgoes t).exited (hjoined t hmem)⟩,
      hexit.ended⟩

variable [DecidableEq S]

theorem Inv.threads (h : s.Inv ctx) {a : AppAction S} (ha : ofThreads a = true)
    {app : AppThreads S} (hstep : s.app.step ctx a = some app) :
    Inv ctx { s with app := app } := by
  have hmoves := AppThreads.queuesMove_step ha hstep
  apply h.goes
  · intro t
    obtain hsame | ⟨b, hmain, hqueue⟩ := hmoves t
    · rw [hsame]
      exact .refl _
    · exact (ThreadState.step_steps (h.queues t) hqueue).goes hmain
  · intro t
    obtain hsame | ⟨b, -, hqueue⟩ := hmoves t
    · rw [hsame]
      exact h.queues t
    · exact (h.queues t).step hqueue

omit [DecidableEq S] in
/-- A new callback; `times` says how often it tells each thread the commands. -/
theorem Inv.enters (h : s.Inv ctx) (htodo : s.todo = []) {todo : List MainCall}
    {stopping : Bool} {reloads : ℕ}
    (hissued : ∀ t cmd, todo.count (.notify cmd t) = if t ∈ ctx.allThreads then
      issued { s with todo := todo, stopping := stopping, reloads := reloads } cmd -
        s.issued cmd else 0)
    (hmore : ∀ cmd, s.issued cmd ≤
      issued { s with todo := todo, stopping := stopping, reloads := reloads } cmd)
    (hreload : 0 < ctx.threadCount .global → ReloadPhase ctx todo (s.queue globalThread))
    (hexit : exiting { s with todo := todo, stopping := stopping, reloads := reloads } =
      true → ExitPhase ctx
        { s with todo := todo, stopping := stopping, reloads := reloads }) :
    Inv ctx { s with todo := todo, stopping := stopping, reloads := reloads } where
  queues := h.queues
  sentOnce := by
    intro t cmd
    have hsent := h.sentOnce t cmd
    have hmore := hmore cmd
    rw [htodo, List.count_nil, Nat.add_zero] at hsent
    rw [hissued]
    change s.sent t cmd + _ = _
    split_ifs with hall
    · rw [if_pos hall] at hsent
      omega
    · rw [if_neg hall] at hsent
      omega
  exits := h.exits
  reload := hreload
  exit := hexit

omit [DecidableEq S] in
theorem ReloadPhase.read_of_nil {global : ThreadState S ThreadTask}
    (h : ReloadPhase ctx [] global) : global.onTheWay .reload = 0 := by
  cases h with
  | calm _ hread => exact hread
  | begun _ hread => exact hread
  | cleared _ hread _ => exact hread
  | waiting htodo _ _ => cases htodo

omit [DecidableEq S] in
theorem exiting_of_idle (htodo : s.todo = []) (hended : s.ended = false) :
    s.exiting = false := by
  simp [exiting, htodo, hended]

omit [DecidableEq S] in
theorem notifyReload_eq (hone : ctx.threadCount .global ≤ 1)
    (hthere : 0 < ctx.threadCount .global) :
    ctx.notifyReload = reloadHead ++ reloadTail ctx := by
  have hthread : ctx.groupThreads .global = [globalThread] := by
    rw [ThreadsCtx.groupThreads, show ctx.threadCount .global = 1 by omega]
    rfl
  rw [ThreadsCtx.notifyReload, if_pos hthere, hthread]
  rfl

omit [DecidableEq S] in
theorem Inv.confChanged (h : s.Inv ctx) (hone : ctx.threadCount .global ≤ 1)
    (htodo : s.todo = []) (hended : s.ended = false) :
    Inv ctx { s with todo := ctx.notifyReload, reloads := s.reloads + 1 } := by
  have hidle := exiting_of_idle htodo hended
  have hexiting : exiting { s with
      todo := ctx.notifyReload, reloads := s.reloads + 1 } = false := by
    simp only [exiting, hended, Bool.false_or, decide_eq_false_iff_not]
    intro hmem
    obtain hmem | hmem := List.mem_append.mp hmem
    · split_ifs at hmem
      · simp at hmem
      · cases hmem
    · simp at hmem
  apply h.enters htodo
  · intro t cmd
    rw [ThreadsCtx.count_notifyReload, ThreadsCtx.count_allThreads]
    cases cmd <;> simp [issued, hexiting]
  · intro cmd
    cases cmd <;> simp [issued, hexiting, hidle]
  · intro hthere
    have hphase := h.reload hthere
    rw [htodo] at hphase
    exact .begun (notifyReload_eq hone hthere) hphase.read_of_nil
  · intro hexit
    rw [hexiting] at hexit
    cases hexit

omit [DecidableEq S] in
theorem Inv.stopSignal (h : s.Inv ctx) (hstopping : s.stopping = false)
    (htodo : s.todo = []) (hended : s.ended = false) :
    Inv ctx { s with todo := ctx.notifyStop, stopping := true } := by
  have hidle := exiting_of_idle htodo hended
  have hexiting : exiting { s with todo := ctx.notifyStop, stopping := true } = false := by
    simp [exiting, hended, ThreadsCtx.notifyStop]
  apply h.enters htodo
  · intro t cmd
    rw [ThreadsCtx.count_notifyStop, ThreadsCtx.count_allThreads]
    cases cmd <;> simp [issued, hexiting, hstopping]
  · intro cmd
    cases cmd <;> simp [issued, hexiting, hidle, hstopping]
  · intro hthere
    have hphase := h.reload hthere
    rw [htodo] at hphase
    refine .calm (fun c hc => ?_) hphase.read_of_nil
    obtain ⟨t, -, rfl⟩ := List.mem_map.mp hc
    simp [reloadHead]
  · intro hexit
    rw [hexiting] at hexit
    cases hexit

omit [DecidableEq S] in
theorem Inv.exitCheck (h : s.Inv ctx) (hstopping : s.stopping = true)
    (htodo : s.todo = []) (hended : s.ended = false) :
    Inv ctx { s with todo := ctx.exitCalls } := by
  have hidle := exiting_of_idle htodo hended
  have hexiting : exiting { s with todo := ctx.exitCalls } = true := by
    simp [exiting, ThreadsCtx.exitCalls]
  apply h.enters htodo
  · intro t cmd
    rw [ThreadsCtx.count_exitCalls, ThreadsCtx.count_allThreads]
    cases cmd <;> simp [issued, hexiting, hidle]
  · intro cmd
    cases cmd <;> simp [issued, hidle]
  · intro hthere
    have hphase := h.reload hthere
    rw [htodo] at hphase
    refine .calm (fun c hc => ?_) hphase.read_of_nil
    obtain hc | hc := List.mem_append.mp hc
    · obtain ⟨t, -, rfl | rfl⟩ := ThreadsCtx.mem_exitGroups hc
      · simp [reloadHead]
      · simp [reloadHead]
    · rw [List.mem_singleton.mp hc]
      simp [reloadHead]
  · intro _
    refine ⟨hstopping, ⟨[], rfl, fun t hmem => nomatch hmem⟩, fun hend => ?_⟩
    rw [hended] at hend
    cases hend

omit [DecidableEq S] in
theorem ReloadPhase.advances {global global' : ThreadState S ThreadTask} {c : MainCall}
    {rest : List MainCall} (h : ReloadPhase ctx (c :: rest) global)
    (hread' : global'.onTheWay .reload =
      global.onTheWay .reload + if c = .notify .reload globalThread then 1 else 0)
    (hflag' : global'.reloadFinished = (global.reloadFinished && c ≠ .clearReloadFinish))
    (hawait : c = .awaitReload → global.reloadFinished = true) :
    ReloadPhase ctx rest global' := by
  cases h with
  | calm hcalm hread =>
      have hc : c ≠ .notify .reload globalThread := by
        rintro rfl
        exact hcalm _ List.mem_cons_self (by simp [reloadHead])
      rw [if_neg hc, hread] at hread'
      exact .calm (fun c hmem => hcalm c (List.mem_cons_of_mem _ hmem)) hread'
  | begun htodo hread =>
      obtain ⟨rfl, rfl⟩ := List.cons.inj htodo
      exact .cleared rfl (hread'.trans (by rw [hread]; rfl)) (by simpa using hflag')
  | cleared htodo hread hflag =>
      obtain ⟨rfl, rfl⟩ := List.cons.inj htodo
      refine .waiting rfl ?_ fun hset => ?_
      · rw [hread', hread, if_pos rfl]
      · rw [hflag', hflag, Bool.false_and] at hset
        cases hset
  | waiting htodo hread hflag =>
      obtain ⟨rfl, rfl⟩ := List.cons.inj htodo
      refine .calm (fun c hmem => ?_) (hread'.trans (by rw [hflag (hawait rfl)]; rfl))
      obtain ⟨t, -, hglobal, rfl⟩ := mem_reloadTail hmem
      have hne : t ≠ globalThread := by
        rintro rfl
        exact hglobal rfl
      simp [reloadHead, hne]

omit [DecidableEq S] in
/-- The main thread has made the next call. -/
theorem Inv.advances (h : s.Inv ctx) {c : MainCall} {rest : List MainCall}
    (htodo : s.todo = c :: rest) (hstopping : s'.stopping = s.stopping)
    (hreloads : s'.reloads = s.reloads) (htodo' : s'.todo = rest)
    (hended : s'.ended = (s.ended || c = .breakLoop))
    (hqueues : ∀ t, (s'.queue t).Inv (ctx.sink t))
    (hsent : ∀ t cmd, s'.sent t cmd = s.sent t cmd + if c = .notify cmd t then 1 else 0)
    (hran : ∀ t, (s'.queue t).ran = (s.queue t).ran)
    (hexited : ∀ t, (s'.queue t).exited = (s.queue t).exited)
    (hflag : (s'.queue globalThread).reloadFinished =
      ((s.queue globalThread).reloadFinished && c ≠ .clearReloadFinish))
    (hawait : c = .awaitReload → (s.queue globalThread).reloadFinished = true)
    (hjoin : ∀ t, c = .join t → (s.queue t).exited = true) : s'.Inv ctx := by
  have hexiting : s'.exiting = s.exiting := by
    simp [exiting, hended, htodo, htodo', eq_comm (a := c), Bool.or_assoc]
  have hissued : s'.issued = s.issued := by
    funext cmd
    cases cmd <;> simp [issued, hstopping, hreloads, hexiting]
  have hcount : ∀ t cmd, (s'.queue t).ranCount cmd = (s.queue t).ranCount cmd := by
    intro t cmd
    rw [ThreadState.ranCount, hran, ThreadState.ranCount]
  refine ⟨hqueues, fun t cmd => ?_, fun t => ?_, fun hthere => ?_, fun hexit => ?_⟩
  · have honce := h.sentOnce t cmd
    rw [htodo, List.count_cons] at honce
    rw [hissued, hsent, htodo', ← honce]
    simp only [beq_iff_eq]
    omega
  · rw [hexited, hcount]
    exact h.exits t
  · have hphase := h.reload hthere
    rw [htodo] at hphase
    rw [htodo']
    refine hphase.advances ?_ hflag hawait
    have hsame := hsent globalThread .reload
    unfold sent at hsame
    rw [hcount] at hsame
    omega
  · rw [hexiting] at hexit
    obtain ⟨hstopped, ⟨done, hsplit, hjoined⟩, hlast⟩ := h.exit hexit
    rw [htodo] at hsplit hlast
    refine ⟨hstopping.trans hstopped, ⟨done ++ [c], ?_, fun t hmem => ?_⟩, fun hend => ?_⟩
    · rw [hsplit, htodo', List.append_assoc, List.singleton_append]
    · rw [hexited]
      obtain hmem | hmem := List.mem_append.mp hmem
      · exact hjoined t hmem
      · exact hjoin t (List.mem_singleton.mp hmem).symm
    · have hbreak : c = .breakLoop := by
        rw [hended, Bool.or_eq_true, decide_eq_true_eq] at hend
        exact hend.resolve_left fun hpast => nomatch hlast hpast
      -- nothing is behind the end of the loop
      have hpairwise := ThreadsCtx.pairwise_exitCalls ctx
      rw [hsplit, hbreak] at hpairwise
      have hbehind := (List.pairwise_cons.mp (List.pairwise_append.mp hpairwise).2.1).1
      rw [htodo']
      exact List.eq_nil_iff_forall_not_mem.mpr hbehind

omit [DecidableEq S] in
/-- A call that leaves the threads alone. -/
theorem Inv.passes (h : s.Inv ctx) {c : MainCall} {rest : List MainCall}
    (htodo : s.todo = c :: rest) (hnotify : ∀ cmd t, c ≠ .notify cmd t)
    (hclear : c ≠ .clearReloadFinish)
    (hawait : c = .awaitReload → (s.queue globalThread).reloadFinished = true)
    (hjoin : ∀ t, c = .join t → (s.queue t).exited = true) {ended : Bool}
    (hended : ended = (s.ended || c = .breakLoop)) :
    Inv ctx { s with todo := rest, ended := ended } := by
  refine h.advances htodo rfl rfl rfl hended h.queues (fun t cmd => ?_) (fun _ => rfl)
    (fun _ => rfl) ?_ hawait hjoin
  · rw [if_neg (hnotify cmd t)]
    rfl
  · simp only [ne_eq, hclear, not_false_eq_true, decide_true, Bool.and_true]
    rfl

omit [DecidableEq S] in
theorem queue_setQueue (s : MainRun S) (t : ThreadRef) (queue : ThreadState S ThreadTask)
    (t' : ThreadRef) :
    (s.setQueue t queue).queue t' = if t' = t then queue else s.queue t' := by
  change (Function.update s.app.threads t _ t').queue = _
  by_cases heq : t' = t
  · subst heq
    rw [Function.update_self, if_pos rfl]
  · rw [Function.update_of_ne heq, if_neg heq]
    rfl

omit [DecidableEq S] in
/-- `SetReloadFinish`. -/
theorem Inv.clear (h : s.Inv ctx) {rest : List MainCall}
    (htodo : s.todo = .clearReloadFinish :: rest) :
    Inv ctx { s.setQueue globalThread { s.queue globalThread with
      reloadFinished := false } with todo := rest } := by
  have hqueue := queue_setQueue s globalThread
    { s.queue globalThread with reloadFinished := false }
  have hsame : ∀ t, ∃ flag, (s.setQueue globalThread
      { s.queue globalThread with reloadFinished := false }).queue t =
        { s.queue t with reloadFinished := flag } := by
    intro t
    rw [hqueue]
    split_ifs with heq
    · exact ⟨false, by rw [heq]⟩
    · exact ⟨(s.queue t).reloadFinished, rfl⟩
  apply h.advances htodo
  · rfl
  · rfl
  · rfl
  · simp [setQueue]
  · intro t
    obtain ⟨flag, heq⟩ := hsame t
    have hthread := h.queues t
    change ((s.setQueue globalThread _).queue t).Inv _
    rw [heq]
    exact ⟨hthread.notified, hthread.armed, hthread.counted, hthread.order, hthread.timer⟩
  · intro t cmd
    obtain ⟨flag, heq⟩ := hsame t
    change ((s.setQueue globalThread _).queue t).onTheWay cmd +
      ((s.setQueue globalThread _).queue t).ranCount cmd = _
    rw [heq, if_neg (by simp)]
    rfl
  · intro t
    obtain ⟨flag, heq⟩ := hsame t
    exact (congrArg ThreadState.ran heq).trans rfl
  · intro t
    obtain ⟨flag, heq⟩ := hsame t
    exact (congrArg ThreadState.exited heq).trans rfl
  · change ((s.setQueue globalThread _).queue globalThread).reloadFinished = _
    rw [hqueue, if_pos rfl]
    simp
  · exact fun hc => nomatch hc
  · exact fun t hc => nomatch hc

omit [DecidableEq S] in
theorem Inv.tells (h : s.Inv ctx) {cmd : ThreadCommand} {rest : List MainCall}
    (htodo : s.todo = .notify cmd t :: rest) {queue : ThreadState S ThreadTask}
    (hinv : queue.Inv (ctx.sink t)) (htold : ThreadState.Told cmd (s.queue t) queue) :
    Inv ctx { s.setQueue t queue with todo := rest } := by
  have hself : (s.setQueue t queue).queue t = queue := by
    rw [queue_setQueue, if_pos rfl]
  have hother : ∀ t' ≠ t, (s.setQueue t queue).queue t' = s.queue t' := by
    intro t' hne
    rw [queue_setQueue, if_neg hne]
  have hqueue : ∀ t', (s.setQueue t queue).queue t' = s.queue t' ∨
      t' = t ∧ (s.setQueue t queue).queue t' = queue := by
    intro t'
    by_cases heq : t' = t
    · exact .inr ⟨heq, heq ▸ hself⟩
    · exact .inl (hother t' heq)
  apply h.advances htodo
  · rfl
  · rfl
  · rfl
  · simp [setQueue]
  · intro t'
    change ((s.setQueue t queue).queue t').Inv _
    obtain heq | ⟨rfl, heq⟩ := hqueue t'
    · rw [heq]
      exact h.queues t'
    · rw [heq]
      exact hinv
  · intro t' cmd'
    change ((s.setQueue t queue).queue t').onTheWay cmd' +
      ((s.setQueue t queue).queue t').ranCount cmd' = _
    by_cases heq : t' = t
    · subst heq
      rw [hself, htold.sent, ThreadState.ranCount, htold.ran]
      simp only [sent, ThreadState.ranCount, MainCall.notify.injEq, and_true,
        eq_comm (a := cmd)]
      omega
    · rw [hother t' heq, if_neg]
      · rfl
      · intro hc
        exact heq (MainCall.notify.inj hc).2.symm
  · intro t'
    obtain heq | ⟨rfl, heq⟩ := hqueue t'
    · exact congrArg ThreadState.ran heq
    · exact (congrArg ThreadState.ran heq).trans htold.ran
  · intro t'
    obtain heq | ⟨rfl, heq⟩ := hqueue t'
    · exact congrArg ThreadState.exited heq
    · exact (congrArg ThreadState.exited heq).trans htold.exited
  · have hflag : ((s.setQueue t queue).queue globalThread).reloadFinished =
        (s.queue globalThread).reloadFinished := by
      obtain heq | ⟨rfl, heq⟩ := hqueue globalThread
      · exact congrArg ThreadState.reloadFinished heq
      · exact (congrArg ThreadState.reloadFinished heq).trans htold.reloadFinished
    exact hflag.trans (by simp)
  · exact fun hc => nomatch hc
  · exact fun t hc => nomatch hc

theorem Inv.notify (h : s.Inv ctx) {cmd : ThreadCommand} {rest : List MainCall}
    (htodo : s.todo = .notify cmd t :: rest) (write : Bool) (env : SetTimerEnv) :
    Inv ctx { s.setQueue t ((s.queue t).notify (ctx.sink t) cmd write env) with
      todo := rest } := by
  have hstep : (s.queue t).step (ctx.sink t) (.notify cmd write env) =
      some ((s.queue t).notify (ctx.sink t) cmd write env) := rfl
  refine h.tells htodo ((h.queues t).step hstep) ?_
  cases cmd with
  | stop => exact (ThreadState.sends (h.queues t).timer _ write env).told
  | reload => exact (ThreadState.sends (h.queues t).timer _ write env).told
  | exit => exact (ThreadState.sends (h.queues t).timer _ write env).told

theorem Inv.call (h : s.Inv ctx) {c : MainCall} {rest : List MainCall}
    (htodo : s.todo = c :: rest) {write : Bool} {env : SetTimerEnv}
    (hcall : s.call ctx rest write env c = some s') : s'.Inv ctx := by
  cases c with
  | clearReloadFinish =>
      rw [← Option.some.inj hcall]
      exact h.clear htodo
  | notify cmd t =>
      rw [← Option.some.inj hcall]
      exact h.notify htodo write env
  | awaitReload =>
      obtain ⟨hfinished, heq⟩ := Option.ite_none_right_eq_some.mp hcall
      rw [← Option.some.inj heq]
      exact h.passes htodo (by simp) (by simp) (fun _ => hfinished) (fun t hc => nomatch hc)
        (by simp)
  | join t =>
      obtain ⟨hexited, heq⟩ := Option.ite_none_right_eq_some.mp hcall
      rw [← Option.some.inj heq]
      exact h.passes htodo (by simp) (by simp) (fun hc => nomatch hc)
        (fun t' hc => MainCall.join.inj hc ▸ hexited) (by simp)
  | breakLoop =>
      rw [← Option.some.inj hcall]
      exact h.passes htodo (by simp) (by simp) (fun hc => nomatch hc)
        (fun t hc => nomatch hc) (by simp)

omit [DecidableEq S] in
theorem enter_some {next : MainRun S} (henter : s.enter next = some s') :
    s.todo = [] ∧ s.ended = false ∧ s' = next := by
  obtain ⟨⟨htodo, hended⟩, heq⟩ := Option.ite_none_right_eq_some.mp henter
  exact ⟨htodo, hended, (Option.some.inj heq).symm⟩

theorem Inv.step (h : s.Inv ctx) (hone : ctx.threadCount .global ≤ 1) {a : MainAction S}
    (hstep : s.step ctx a = some s') : s'.Inv ctx := by
  cases a with
  | threads a =>
      obtain ⟨ha, hstep⟩ := Option.ite_none_right_eq_some.mp hstep
      obtain ⟨app, happ, rfl⟩ := Option.map_eq_some_iff.mp hstep
      exact h.threads ha happ
  | proceed write env =>
      cases htodo : s.todo with
      | nil => simp [MainRun.step, htodo] at hstep
      | cons c rest =>
          simp only [MainRun.step, htodo] at hstep
          exact h.call htodo hstep
  | confChanged =>
      obtain ⟨htodo, hended, rfl⟩ := enter_some hstep
      exact h.confChanged hone htodo hended
  | stopSignal =>
      obtain ⟨htodo, hended, rfl⟩ := enter_some hstep
      split_ifs with hstopping
      · exact h
      · exact h.stopSignal (by simpa using hstopping) htodo hended
  | exitCheck canExit =>
      obtain ⟨hstopping, hstep⟩ := Option.ite_none_right_eq_some.mp hstep
      obtain ⟨htodo, hended, rfl⟩ := enter_some hstep
      split_ifs
      · exact h.exitCheck hstopping htodo hended
      · exact h

/-- **Reloading and the way out**, at every point of every interleaving.  The group of
the global thread has one thread. -/
theorem run_mainOk (ctx : ThreadsCtx S) (hone : ctx.threadCount .global ≤ 1)
    (actions : List (MainAction S)) :
    Along (step ctx) (MainOk ctx) (fun _ _ _ => True) init actions :=
  along_of_inv (fun _ h => Inv.mainOk h hone)
    (fun _ _ _ h hstep => ⟨Inv.step h hone hstep, trivial⟩) actions Inv.init

/-- The global thread and a work thread. -/
def smallMain : ThreadsCtx ThreadRef where
  threadCount := fun type =>
    match type with
    | .global => 1
    | .work => 1
    | _ => 0
  tcp := fun _ => ⟨false, 1, ⟨60, 10, 100⟩⟩
  codec := .ofLimit ⟨16, true⟩ crc32Bitwise
  sink := fun t => t

/-- A thread reads the first byte of its pipe. -/
def reads (t : ThreadRef) : MainAction ThreadRef := .threads (.queue t (.readCallback true))

def proceeds (write : Bool) : MainAction ThreadRef :=
  .proceed write ⟨true, true, true, true⟩

/-- A reload and then the way out.  The stop of the work thread has to wait for its
pipe, and the exit overtakes it. -/
def reloadedAndStopped : List (MainAction ThreadRef) :=
  [.confChanged, proceeds true, proceeds true, reads globalThread, proceeds true,
    proceeds true, .stopSignal, proceeds true, proceeds false, reads ⟨.work, 0⟩,
    .exitCheck true, proceeds true, reads globalThread, reads globalThread, proceeds true,
    proceeds true, reads ⟨.work, 0⟩, proceeds true, proceeds true]

theorem run_mainOk_reloadedAndStopped :
    (run (step smallMain) init reloadedAndStopped).map
        (fun s => (s.ended, (s.queue globalThread).ran.map (·.what),
          (s.queue ⟨.work, 0⟩).ran.map (·.what))) =
      some (true, [.reload, .stop, .exit], [.reload, .exit]) ∧
    Along (step smallMain) (MainOk smallMain) (fun _ _ _ => True) init reloadedAndStopped :=
  ⟨by decide +kernel, run_mainOk smallMain (by decide) reloadedAndStopped⟩

end MainRun

end CommonComponent
