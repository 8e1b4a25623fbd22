import CommonComponent.LabelledRun
import Mathlib.Tactic

/-!
# The notification mutexes of the threads

Every thread has a `write_fd_mutex_`, which is locked in `PushTask`, in the three
notifications, in `OnTask`, `OnStop` and `OnTimer`.  Only `OnStop` calls its sink with
the mutex locked, and what the sink calls may lock the mutex of any thread.  A run
interleaves the threads at each operation on a mutex; sinks call whatever they like.
-/

namespace CommonComponent

open LabelledRun

/-- A call of a sink.  `onDrained` is the `OnTask` that `OnStop` makes for a task that
was still queued. -/
inductive SinkCall
  | onTask
  | onDrained
  | onStop
  | onReload
  | onTimer
deriving DecidableEq

def SinkCall.FromOnStop (call : SinkCall) : Prop := call = .onDrained ∨ call = .onStop

instance (call : SinkCall) : Decidable call.FromOnStop :=
  inferInstanceAs (Decidable (_ ∨ _))

/-- What a thread does next. -/
inductive LockOp (ι : Type*)
  | lock (mutex : ι)
  | unlock (mutex : ι)
  | pushBack (queue : ι)
  | popFront (queue : ι)
  | drain (queue : ι)
  | sink (call : SinkCall)
deriving DecidableEq

inductive ThreadCall (ι : Type*)
  | pushTask (thread : ι)
  | notifyStop (thread : ι)
  | notifyReload (thread : ι)
  | notifyExit (thread : ι)

/-- `owner` is who has locked the mutex of a thread, `tasks` the length of its
`task_list_`. -/
structure ThreadLocks (ι : Type*) where
  owner : ι → Option ι
  tasks : ι → ℕ
  stopping : ι → Bool
  exited : ι → Bool
  todo : ι → List (LockOp ι)

/-- `onTask` and the like are what the loop of a thread calls; `sinkTimer` is a timer
of another sink of the thread.  `call` and `ret` are a sink in one of its calls, and
`proceed` is the next operation of a thread. -/
inductive LockAction (ι : Type*)
  | onTask (thread : ι)
  | onStop (thread : ι)
  | onReload (thread : ι)
  | onExit (thread : ι)
  | onTimer (thread : ι)
  | sinkTimer (thread : ι)
  | callFrom (thread : ι) (call : ThreadCall ι)
  | proceed (thread : ι)
  | call (thread : ι) (call : ThreadCall ι)
  | ret (thread : ι)

namespace ThreadLocks

variable {ι : Type*}

/-! ## The functions -/

def pushTask (thread : ι) : List (LockOp ι) :=
  [.lock thread, .pushBack thread, .unlock thread]

def notifyStop (thread : ι) : List (LockOp ι) := [.lock thread, .unlock thread]

def notifyReload (thread : ι) : List (LockOp ι) := [.lock thread, .unlock thread]

def notifyExit (thread : ι) : List (LockOp ι) := [.lock thread, .unlock thread]

def onTimer (thread : ι) : List (LockOp ι) := [.lock thread, .unlock thread]

def onTask (thread : ι) : List (LockOp ι) := [.lock thread, .popFront thread]

def onStop (thread : ι) : List (LockOp ι) :=
  [.lock thread, .drain thread, .sink .onStop, .unlock thread]

def onReload : List (LockOp ι) := [.sink .onReload]

end ThreadLocks

namespace ThreadCall

variable {ι : Type*}

def thread : ThreadCall ι → ι
  | .pushTask thread => thread
  | .notifyStop thread => thread
  | .notifyReload thread => thread
  | .notifyExit thread => thread

def ops : ThreadCall ι → List (LockOp ι)
  | .pushTask thread => ThreadLocks.pushTask thread
  | .notifyStop thread => ThreadLocks.notifyStop thread
  | .notifyReload thread => ThreadLocks.notifyReload thread
  | .notifyExit thread => ThreadLocks.notifyExit thread

end ThreadCall

namespace ThreadLocks

variable {ι : Type*}

def init : ThreadLocks ι where
  owner := fun _ => none
  tasks := fun _ => 0
  stopping := fun _ => false
  exited := fun _ => false
  todo := fun _ => []

section Steps

variable [DecidableEq ι]

def setTodo (s : ThreadLocks ι) (thread : ι) (ops : List (LockOp ι)) : ThreadLocks ι :=
  { s with todo := Function.update s.todo thread ops }

def setOwner (s : ThreadLocks ι) (mutex : ι) (owner : Option ι) : ThreadLocks ι :=
  { s with owner := Function.update s.owner mutex owner }

def setTasks (s : ThreadLocks ι) (queue : ι) (tasks : ℕ) : ThreadLocks ι :=
  { s with tasks := Function.update s.tasks queue tasks }

/-- The loop of the thread, which `OnExit` has not broken, makes a call. -/
def fromLoop (s : ThreadLocks ι) (thread : ι) (ops : List (LockOp ι)) :
    Option (ThreadLocks ι) :=
  if s.exited thread || !(s.todo thread).isEmpty then none
  else some (s.setTodo thread ops)

/-- The next operation of a thread; `none` where it waits for a mutex or is in a call
of its sink. -/
def proceed (s : ThreadLocks ι) (thread : ι) : Option (ThreadLocks ι) :=
  match s.todo thread with
  | [] => none
  | .lock mutex :: rest =>
      if (s.owner mutex).isSome then none
      else some ((s.setOwner mutex (some thread)).setTodo thread rest)
  | .unlock mutex :: rest => some ((s.setOwner mutex none).setTodo thread rest)
  | .pushBack queue :: rest =>
      some ((s.setTasks queue (s.tasks queue + 1)).setTodo thread rest)
  | .popFront queue :: rest =>
      match s.tasks queue with
      | 0 => some (s.setTodo thread (.unlock queue :: rest))
      | tasks + 1 =>
          some ((s.setTasks queue tasks).setTodo thread
            (.unlock queue :: .sink .onTask :: rest))
  | .drain queue :: rest =>
      match s.tasks queue with
      | 0 => some (s.setTodo thread rest)
      | tasks + 1 =>
          some ((s.setTasks queue tasks).setTodo thread
            (.sink .onDrained :: .drain queue :: rest))
  | .sink _ :: _ => none

def step (s : ThreadLocks ι) : LockAction ι → Option (ThreadLocks ι)
  | .onTask thread => s.fromLoop thread (onTask thread)
  | .onStop thread =>
      if s.stopping thread then s.fromLoop thread []
      else
        { s with stopping := Function.update s.stopping thread true }.fromLoop thread
          (onStop thread)
  | .onReload thread => s.fromLoop thread onReload
  | .onExit thread =>
      (s.fromLoop thread []).map fun s =>
        { s with exited := Function.update s.exited thread true }
  | .onTimer thread => s.fromLoop thread (onTimer thread)
  | .sinkTimer thread => s.fromLoop thread [.sink .onTimer]
  | .callFrom thread call => s.fromLoop thread call.ops
  | .proceed thread => s.proceed thread
  | .call thread call =>
      match s.todo thread with
      | .sink _ :: _ => some (s.setTodo thread (call.ops ++ s.todo thread))
      | _ => none
  | .ret thread =>
      match s.todo thread with
      | .sink _ :: rest => some (s.setTodo thread rest)
      | _ => none

end Steps

/-- No thread is about to lock a mutex that it has locked. -/
def NoSelfLock (s : ThreadLocks ι) : Prop :=
  ∀ thread mutex, (s.todo thread).head? = some (.lock mutex) →
    s.owner mutex ≠ some thread

/-- The condition on a step: a sink that `OnStop` has called makes no call on its own
thread. -/
def CallsOthers (s : ThreadLocks ι) : LockAction ι → Prop
  | .call thread call =>
      ∀ sinkCall, (s.todo thread).head? = some (.sink sinkCall) →
        sinkCall.FromOnStop → call.thread ≠ thread
  | _ => True

/-! ## Held mutexes -/

/-- The mutexes that a thread has locked while it is in a call of its sink. -/
def heldIn (thread : ι) (call : SinkCall) : List ι :=
  if call.FromOnStop then [thread] else []

/-- With `held` locked these operations lock nothing twice and unlock everything. -/
inductive Balanced (thread : ι) : List ι → List (LockOp ι) → Prop
  | nil : Balanced thread [] []
  | lock {held : List ι} {rest : List (LockOp ι)} {mutex : ι} (hfree : mutex ∉ held)
      (hrest : Balanced thread (mutex :: held) rest) :
      Balanced thread held (.lock mutex :: rest)
  | unlock {held : List ι} {rest : List (LockOp ι)} {mutex : ι}
      (hrest : Balanced thread held rest) :
      Balanced thread (mutex :: held) (.unlock mutex :: rest)
  | pushBack {held : List ι} {rest : List (LockOp ι)} {queue : ι}
      (hrest : Balanced thread held rest) :
      Balanced thread held (.pushBack queue :: rest)
  | popFront {rest : List (LockOp ι)} (hrest : Balanced thread [] rest) :
      Balanced thread [thread] (.popFront thread :: rest)
  | drain {rest : List (LockOp ι)} (hrest : Balanced thread [thread] rest) :
      Balanced thread [thread] (.drain thread :: rest)
  | sink {rest : List (LockOp ι)} {call : SinkCall}
      (hrest : Balanced thread (heldIn thread call) rest) :
      Balanced thread (heldIn thread call) (.sink call :: rest)

structure ThreadOk (s : ThreadLocks ι) (thread : ι) (held : List ι) : Prop where
  balanced : Balanced thread held (s.todo thread)
  nodup : held.Nodup
  owner : ∀ mutex, s.owner mutex = some thread ↔ mutex ∈ held

def Inv (s : ThreadLocks ι) : Prop := ∀ thread, ∃ held, s.ThreadOk thread held

theorem Inv.init : (init : ThreadLocks ι).Inv := fun _ =>
  ⟨[], .nil, .nil, fun _ => by simp [ThreadLocks.init]⟩

theorem Inv.noSelfLock {s : ThreadLocks ι} (h : s.Inv) : s.NoSelfLock := by
  intro thread mutex hhead howner
  obtain ⟨held, hok⟩ := h thread
  have hbalanced := hok.balanced
  have hheld := (hok.owner mutex).mp howner
  cases htodo : s.todo thread with
  | nil => simp [htodo] at hhead
  | cons op rest =>
      rw [htodo] at hhead hbalanced
      obtain rfl : op = .lock mutex := Option.some.inj hhead
      cases hbalanced with
      | lock hfree hrest => exact hfree hheld

/-- A step of one thread, seen from the others. -/
theorem Inv.update {s s' : ThreadLocks ι} (h : s.Inv) {thread : ι} {held : List ι}
    (hok : s'.ThreadOk thread held)
    (htodo : ∀ other, other ≠ thread → s'.todo other = s.todo other)
    (howner : ∀ other, other ≠ thread → ∀ mutex,
      s'.owner mutex = some other ↔ s.owner mutex = some other) : s'.Inv := by
  intro other
  by_cases heq : other = thread
  · exact heq ▸ ⟨held, hok⟩
  · obtain ⟨held', hok'⟩ := h other
    refine ⟨held', ?_, hok'.nodup, fun mutex => ?_⟩
    · rw [htodo other heq]
      exact hok'.balanced
    · rw [howner other heq mutex]
      exact hok'.owner mutex

theorem Balanced.callOps {thread : ι} {held : List ι} {rest : List (LockOp ι)}
    (call : ThreadCall ι) (hfree : call.thread ∉ held) (hrest : Balanced thread held rest) :
    Balanced thread held (call.ops ++ rest) := by
  cases call with
  | pushTask mutex => exact .lock hfree (.pushBack (.unlock hrest))
  | notifyStop mutex => exact .lock hfree (.unlock hrest)
  | notifyReload mutex => exact .lock hfree (.unlock hrest)
  | notifyExit mutex => exact .lock hfree (.unlock hrest)

theorem balanced_onTask (thread : ι) : Balanced thread [] (onTask thread) :=
  .lock List.not_mem_nil (.popFront .nil)

theorem balanced_onTimer (thread : ι) : Balanced thread [] (onTimer thread) :=
  .lock List.not_mem_nil (.unlock .nil)

theorem balanced_onStop (thread : ι) : Balanced thread [] (onStop thread) := by
  have hsink : Balanced thread (heldIn thread .onStop) [.sink .onStop, .unlock thread] :=
    .sink (.unlock .nil)
  exact .lock List.not_mem_nil (.drain hsink)

theorem balanced_sink (thread : ι) {call : SinkCall} (hcall : ¬call.FromOnStop)
    {rest : List (LockOp ι)} (hrest : Balanced thread [] rest) :
    Balanced thread [] (.sink call :: rest) := by
  have hheld : heldIn thread call = [] := if_neg hcall
  rw [← hheld] at hrest ⊢
  exact .sink hrest

variable {s s' : ThreadLocks ι} {thread : ι}

/-- In a call of its sink a thread holds its own mutex, or none. -/
theorem ThreadOk.held_eq {held : List ι} (h : s.ThreadOk thread held) {call : SinkCall}
    {rest : List (LockOp ι)} (htodo : s.todo thread = .sink call :: rest) :
    held = heldIn thread call ∧ Balanced thread held rest := by
  have hbalanced := h.balanced
  rw [htodo] at hbalanced
  cases hbalanced with
  | sink hrest => exact ⟨rfl, hrest⟩

theorem head?_ops (call : ThreadCall ι) (rest : List (LockOp ι)) :
    (call.ops ++ rest).head? = some (.lock call.thread) := by
  cases call
  all_goals rfl

variable [DecidableEq ι]

theorem ThreadOk.setTodo {held : List ι} (h : s.ThreadOk thread held)
    {ops : List (LockOp ι)} (hops : Balanced thread held ops) :
    (s.setTodo thread ops).ThreadOk thread held where
  balanced := by simpa [ThreadLocks.setTodo] using hops
  nodup := h.nodup
  owner := h.owner

theorem setTodo_other {other : ι} (hne : other ≠ thread) (ops : List (LockOp ι)) :
    (s.setTodo thread ops).todo other = s.todo other := by
  simp [setTodo, hne]

theorem Inv.setTodo (h : s.Inv) {held : List ι} (hok : s.ThreadOk thread held)
    {ops : List (LockOp ι)} (hops : Balanced thread held ops) :
    (s.setTodo thread ops).Inv :=
  h.update (hok.setTodo hops) (fun _ hne => setTodo_other hne ops)
    fun _ _ _ => Iff.rfl

theorem Inv.fromLoop (h : s.Inv) {ops : List (LockOp ι)}
    (hops : Balanced thread [] ops) (hcall : s.fromLoop thread ops = some s') :
    s'.Inv := by
  unfold ThreadLocks.fromLoop at hcall
  split_ifs at hcall with hbusy
  obtain rfl := Option.some.inj hcall
  obtain ⟨held, hok⟩ := h thread
  have hidle : s.todo thread = [] := by
    simp only [Bool.or_eq_true, Bool.not_eq_true', not_or, Bool.not_eq_false] at hbusy
    exact List.isEmpty_iff.mp hbusy.2
  have hbalanced := hok.balanced
  rw [hidle] at hbalanced
  cases hbalanced with
  | nil => exact h.setTodo hok hops

theorem Inv.setTasks (h : s.Inv) (queue : ι) (tasks : ℕ) : (s.setTasks queue tasks).Inv :=
  fun other => (h other).imp fun _ hok => ⟨hok.balanced, hok.nodup, hok.owner⟩

theorem Inv.lock (h : s.Inv) {held : List ι} (hok : s.ThreadOk thread held) {mutex : ι}
    (hfree : mutex ∉ held) (hnone : s.owner mutex = none) {rest : List (LockOp ι)}
    (hrest : Balanced thread (mutex :: held) rest) :
    ((s.setOwner mutex (some thread)).setTodo thread rest).Inv := by
  have howner : ∀ other who, ((s.setOwner mutex (some thread)).setTodo thread rest).owner
      other = some who ↔ (other = mutex ∧ who = thread) ∨ s.owner other = some who := by
    intro other who
    by_cases heq : other = mutex
    · subst heq
      simp [ThreadLocks.setTodo, setOwner, hnone, eq_comm]
    · simp [ThreadLocks.setTodo, setOwner, heq]
  have hlocked : ((s.setOwner mutex (some thread)).setTodo thread rest).ThreadOk thread
      (mutex :: held) := by
    refine ⟨?_, List.nodup_cons.mpr ⟨hfree, hok.nodup⟩, fun other => ?_⟩
    · simpa [ThreadLocks.setTodo] using hrest
    · rw [howner, hok.owner, List.mem_cons, and_iff_left rfl]
  apply h.update hlocked
  · exact fun other hne => setTodo_other hne rest
  · intro other hne mutex'
    rw [howner]
    exact ⟨fun hor => hor.resolve_left fun hboth => hne hboth.2, .inr⟩

theorem Inv.unlock (h : s.Inv) {held : List ι} {mutex : ι}
    (hok : s.ThreadOk thread (mutex :: held)) {rest : List (LockOp ι)}
    (hrest : Balanced thread held rest) :
    ((s.setOwner mutex none).setTodo thread rest).Inv := by
  have hnodup := List.nodup_cons.mp hok.nodup
  have howner : ∀ other who, ((s.setOwner mutex none).setTodo thread rest).owner
      other = some who ↔ other ≠ mutex ∧ s.owner other = some who := by
    intro other who
    by_cases heq : other = mutex
    · subst heq
      simp [ThreadLocks.setTodo, setOwner]
    · simp [ThreadLocks.setTodo, setOwner, heq]
  have hunlocked : ((s.setOwner mutex none).setTodo thread rest).ThreadOk thread held := by
    refine ⟨?_, hnodup.2, fun other => ?_⟩
    · simpa [ThreadLocks.setTodo] using hrest
    · rw [howner, hok.owner, List.mem_cons]
      constructor
      · exact fun ⟨hne, hor⟩ => hor.resolve_left hne
      · exact fun hmem => ⟨fun heq => hnodup.1 (heq ▸ hmem), .inr hmem⟩
  apply h.update hunlocked
  · exact fun other hne => setTodo_other hne rest
  · intro other hne mutex'
    rw [howner]
    refine ⟨And.right, fun hother => ⟨?_, hother⟩⟩
    rintro rfl
    have hmine := (hok.owner mutex').mpr List.mem_cons_self
    rw [hmine, Option.some.injEq] at hother
    exact hne hother.symm

theorem Inv.proceed (h : s.Inv) (hstep : s.proceed thread = some s') : s'.Inv := by
  obtain ⟨held, hok⟩ := h thread
  have hbalanced := hok.balanced
  unfold ThreadLocks.proceed at hstep
  cases htodo : s.todo thread with
  | nil => simp [htodo] at hstep
  | cons op rest =>
      rw [htodo] at hbalanced hstep
      cases hbalanced with
      | lock hfree hrest =>
          simp only at hstep
          split_ifs at hstep with howned
          obtain rfl := Option.some.inj hstep
          exact h.lock hok hfree (by simpa using howned) hrest
      | unlock hrest =>
          obtain rfl := Option.some.inj hstep
          exact h.unlock hok hrest
      | pushBack hrest =>
          obtain rfl := Option.some.inj hstep
          exact (h.setTasks _ _).setTodo ⟨hok.balanced, hok.nodup, hok.owner⟩ hrest
      | popFront hrest =>
          have hsink := balanced_sink thread (show ¬SinkCall.FromOnStop .onTask by decide)
            hrest
          simp only at hstep
          split at hstep
          · obtain rfl := Option.some.inj hstep
            exact h.setTodo hok (.unlock hrest)
          · obtain rfl := Option.some.inj hstep
            exact (h.setTasks _ _).setTodo ⟨hok.balanced, hok.nodup, hok.owner⟩
              (.unlock hsink)
      | drain hrest =>
          have hsink : Balanced thread (heldIn thread .onDrained)
            (.sink .onDrained :: .drain thread :: rest) := .sink (.drain hrest)
          simp only at hstep
          split at hstep
          · obtain rfl := Option.some.inj hstep
            exact h.setTodo hok hrest
          · obtain rfl := Option.some.inj hstep
            exact (h.setTasks _ _).setTodo ⟨hok.balanced, hok.nodup, hok.owner⟩ hsink
      | sink hrest => cases hstep

theorem Inv.step (h : s.Inv) {a : LockAction ι} (hguard : s.CallsOthers a)
    (hstep : s.step a = some s') : s'.Inv := by
  cases a with
  | onTask thread => exact h.fromLoop (balanced_onTask thread) hstep
  | onStop thread =>
      simp only [ThreadLocks.step] at hstep
      split_ifs at hstep
      · exact h.fromLoop .nil hstep
      · have hstopping : Inv { s with
            stopping := Function.update s.stopping thread true } :=
          fun other => (h other).imp fun _ hok => ⟨hok.balanced, hok.nodup, hok.owner⟩
        exact hstopping.fromLoop (balanced_onStop thread) hstep
  | onReload thread => exact h.fromLoop (balanced_sink thread (by decide) .nil) hstep
  | onExit thread =>
      obtain ⟨idle, hidle, rfl⟩ := Option.map_eq_some_iff.mp hstep
      have hinv : idle.Inv := h.fromLoop .nil hidle
      exact fun other => (hinv other).imp fun _ hok => ⟨hok.balanced, hok.nodup, hok.owner⟩
  | onTimer thread => exact h.fromLoop (balanced_onTimer thread) hstep
  | sinkTimer thread => exact h.fromLoop (balanced_sink thread (by decide) .nil) hstep
  | callFrom thread call =>
      have hcall : Balanced thread [] (call.ops ++ []) :=
        .callOps call List.not_mem_nil .nil
      rw [List.append_nil] at hcall
      exact h.fromLoop hcall hstep
  | proceed thread => exact h.proceed hstep
  | call thread call =>
      simp only [ThreadLocks.step] at hstep
      obtain ⟨held, hok⟩ := h thread
      split at hstep
      next sinkCall rest htodo =>
        obtain rfl := Option.some.inj hstep
        obtain ⟨hheld, -⟩ := hok.held_eq htodo
        apply h.setTodo hok
        apply Balanced.callOps call ?_ hok.balanced
        rw [hheld, heldIn]
        split_ifs with hfrom
        · rw [List.mem_singleton]
          exact hguard sinkCall (by rw [htodo, List.head?_cons]) hfrom
        · exact List.not_mem_nil
      next => cases hstep
  | ret thread =>
      simp only [ThreadLocks.step] at hstep
      obtain ⟨held, hok⟩ := h thread
      split at hstep
      next sinkCall rest htodo =>
        obtain rfl := Option.some.inj hstep
        exact h.setTodo hok (hok.held_eq htodo).2
      next => cases hstep

theorem Inv.callsOthers (h : s.Inv) {a : LockAction ι} (hstep : s.step a = some s')
    (hgood : s'.NoSelfLock) : s.CallsOthers a := by
  cases a with
  | call thread call =>
      intro sinkCall hhead hfrom heq
      obtain ⟨held, hok⟩ := h thread
      simp only [ThreadLocks.step] at hstep
      split at hstep
      next sinkCall' rest htodo =>
        obtain rfl := Option.some.inj hstep
        rw [htodo, List.head?_cons, Option.some.injEq, LockOp.sink.injEq] at hhead
        have hheld := (hok.held_eq htodo).1
        rw [hhead, heldIn, if_pos hfrom] at hheld
        have howner := (hok.owner thread).mpr (by rw [hheld]; exact List.mem_cons_self)
        have hlocks := hgood thread call.thread (by
          simp only [ThreadLocks.setTodo, Function.update_self]
          exact head?_ops call _)
        exact hlocks (heq ▸ howner)
      next => cases hstep
  | _ => trivial

/-- **No thread locks its own mutex twice** in exactly the runs in which the sink calls
that `OnStop` makes leave their own thread alone. -/
theorem run_noSelfLock_iff (actions : List (LockAction ι)) :
    Along step NoSelfLock (fun _ _ _ => True) init actions ↔
      Guarded step CallsOthers init actions :=
  along_iff_guarded (fun _ h => Inv.noSelfLock h)
    (fun _ _ _ h ha hstep => ⟨h.step ha hstep, trivial⟩)
    (fun _ _ _ h hstep _ hgood => h.callsOthers hstep hgood) actions Inv.init

/-- The sink of a thread that stops sends a task to its own thread. -/
def sendsToItself : List (LockAction ℕ) :=
  [.onStop 0, .proceed 0, .proceed 0, .call 0 (.pushTask 0)]

theorem not_noSelfLock_sendsToItself :
    ¬Along step NoSelfLock (fun _ _ _ => True) init sendsToItself := by
  intro h
  exact ((((h.2 _ rfl).2.2 _ rfl).2.2 _ rfl).2.2 _ rfl).2 0 0 rfl rfl

end ThreadLocks

end CommonComponent
