import CommonComponent.Scheduler

/-!
# The start of the framework

`LoadAndCheckConf` adds up how many threads there will be while it checks the
configuration.  The thread modules are then loaded and their groups created, each under a
condition of its own, and `Activate` waits for as many reports as were added up.

In between `SetThreadsRelationship` gives the groups to the schedulers of all threads.
It goes through a pointer to the web group that only a web module sets.

What the modules and their threads need from outside (shared objects, sockets, the
logics) is an environment: it says which modules load and which threads come up.
-/

namespace CommonComponent

/-- One of the sections `tcp/raw`, `tcp/proto` and `tcp/web`. -/
structure IoConf where
  addr : String
  threadCount : ℤ
  logicSoGroup : List String
  isInt : threadCount < 2 ^ 31

structure AppFrameConf where
  globalLogicSo : String
  workThreadCount : ℤ
  workLogicSoGroup : List String
  burdenThreadCount : ℤ
  burdenLogicSoGroup : List String
  rawTcp : IoConf
  protoTcp : IoConf
  web : IoConf
  workIsInt : workThreadCount < 2 ^ 31
  burdenIsInt : burdenThreadCount < 2 ^ 31

namespace AppFrameConf

def ioConfs (conf : AppFrameConf) : List IoConf := [conf.rawTcp, conf.protoTcp, conf.web]

structure NonNeg (conf : AppFrameConf) : Prop where
  work : 0 ≤ conf.workThreadCount
  burden : 0 ≤ conf.burdenThreadCount
  io : ∀ io ∈ conf.ioConfs, 0 ≤ io.threadCount

def Consistent (conf : AppFrameConf) : Prop :=
  ∀ io ∈ conf.ioConfs, io.addr.length = 0 → io.threadCount = 0

/-- No thread gets a pointer to the web group that was not set. -/
def WebGroupSet (conf : AppFrameConf) : Prop :=
  conf.burdenThreadCount = 0 ∧
    (conf.globalLogicSo.length > 0 ∨ conf.workThreadCount ≠ 0 → conf.web.threadCount ≠ 0)

end AppFrameConf

/-- Why a configuration is not accepted; `app_frame_threads_count_` is an `int`. -/
inductive ConfFault
  | logged (msg : String)
  | overflow
deriving DecidableEq

def addThreads (count n : ℤ) : Except ConfFault ℤ :=
  if -2 ^ 31 ≤ count + n ∧ count + n < 2 ^ 31 then .ok (count + n) else .error .overflow

def checkGlobal (conf : AppFrameConf) (count : ℤ) : Except ConfFault ℤ :=
  if conf.globalLogicSo.length > 0 then addThreads count 1 else .ok count

def checkIo (name : String) (io : IoConf) (workThreadCount count : ℤ) : Except ConfFault ℤ :=
  if io.addr.length > 0 then
    if io.threadCount = 0 then
      .error (.logged ("there must be at least one " ++ name ++ " thread"))
    else do
      let count ← addThreads count io.threadCount
      if workThreadCount = 0 ∧ io.logicSoGroup.length = 0 then
        .error (.logged ("there is no work thread, so there must be at least one " ++ name ++
          " logic so"))
      else .ok count
  else .ok count

def checkBurden (conf : AppFrameConf) (count : ℤ) : Except ConfFault ℤ :=
  if conf.burdenThreadCount > 0 then do
    let count ← addThreads count conf.burdenThreadCount
    if conf.burdenLogicSoGroup.length = 0 then
      .error (.logged "there must be at least one burden logic so")
    else .ok count
  else .ok count

def checkWork (conf : AppFrameConf) (count : ℤ) : Except ConfFault ℤ :=
  if conf.workThreadCount > 0 then do
    let count ← addThreads count conf.workThreadCount
    if conf.burdenThreadCount = 0 ∧ conf.rawTcp.logicSoGroup.length = 0 ∧
        conf.protoTcp.logicSoGroup.length = 0 ∧ conf.workLogicSoGroup.length = 0 then
      .error (.logged ("there is no burden thread and io logic group, so there must be at " ++
        "least one work logic so"))
    else .ok count
  else .ok count

def loadAndCheckConf (conf : AppFrameConf) : Except ConfFault ℤ := do
  let count ← checkGlobal conf 0
  let count ← checkIo "tcp" conf.rawTcp conf.workThreadCount count
  let count ← checkIo "proto tcp" conf.protoTcp conf.workThreadCount count
  let count ← checkIo "http-ws" conf.web conf.workThreadCount count
  if conf.workThreadCount = 0 ∧ conf.burdenThreadCount > 0 then
    .error (.logged ("no work thread but burden thread count is " ++
      toString conf.burdenThreadCount))
  else
    let count ← checkBurden conf count
    let count ← checkWork conf count
    if conf.rawTcp.addr.length = 0 ∧ conf.protoTcp.addr.length = 0 ∧ conf.web.addr.length = 0 then
      .error (.logged "there must be one tcp or proto tcp or http-ws or udp io module")
    else .ok count

/-! ## Modules and threads -/

inductive ThreadsModule
  | global
  | work
  | burden
  | tcp
  | protoTcp
  | web
deriving DecidableEq

/-- `loads` says whether a module is loaded and its `Initialize` succeeds, `sinkInit`
whether the sink of its thread `i` does; the thread's scheduler draws the other two. -/
structure AppFrameEnv where
  loads : ThreadsModule → Bool
  sinkInit : ThreadsModule → ℕ → Bool
  workRand : ThreadsModule → ℕ → WorkTarget → ℕ
  tcpRand : ThreadsModule → ℕ → TcpTarget → ℕ

/-- Why the start fails; `create` has the threads created before. -/
inductive StartFault
  | conf (e : ConfFault)
  | load
  | create (created : ℕ)
  | nullPointer
  | relate (e : SchedulerFault)

/-- `conf.thread_count` of a module. -/
structure ThreadsConf where
  threadCount : ℤ
  isInt : threadCount < 2 ^ 31

/-- The modules that are loaded. -/
structure LoadedThreads where
  global : Option ThreadsConf
  work : Option ThreadsConf
  burden : Option ThreadsConf
  tcp : Option ThreadsConf
  protoTcp : Option ThreadsConf
  web : Option ThreadsConf

/-- A `Load...Threads`: nothing is loaded under the condition `skip`. -/
def loadModule (env : AppFrameEnv) (module : ThreadsModule) (skip : Bool)
    (conf : ThreadsConf) : Except StartFault (Option ThreadsConf) :=
  if skip then .ok none
  else if env.loads module then .ok (some conf)
  else .error .load

def loadGlobalThread (env : AppFrameEnv) (conf : AppFrameConf) :
    Except StartFault (Option ThreadsConf) :=
  loadModule env .global (conf.globalLogicSo.length = 0) ⟨1, by decide⟩

def loadWorkThreads (env : AppFrameEnv) (conf : AppFrameConf) :
    Except StartFault (Option ThreadsConf) :=
  loadModule env .work (conf.workThreadCount = 0) ⟨conf.workThreadCount, conf.workIsInt⟩

def loadBurdenThreads (env : AppFrameEnv) (conf : AppFrameConf) :
    Except StartFault (Option ThreadsConf) :=
  loadModule env .burden (conf.workThreadCount = 0 || conf.burdenThreadCount = 0)
    ⟨conf.burdenThreadCount, conf.burdenIsInt⟩

def loadTcpThreads (env : AppFrameEnv) (conf : AppFrameConf) :
    Except StartFault (Option ThreadsConf) :=
  loadModule env .tcp (conf.rawTcp.threadCount = 0)
    ⟨conf.rawTcp.threadCount, conf.rawTcp.isInt⟩

def loadProtoTcpThreads (env : AppFrameEnv) (conf : AppFrameConf) :
    Except StartFault (Option ThreadsConf) :=
  loadModule env .protoTcp (conf.protoTcp.threadCount = 0)
    ⟨conf.protoTcp.threadCount, conf.protoTcp.isInt⟩

def loadWebThreads (env : AppFrameEnv) (conf : AppFrameConf) :
    Except StartFault (Option ThreadsConf) :=
  loadModule env .web (conf.web.threadCount = 0) ⟨conf.web.threadCount, conf.web.isInt⟩

def loadAllThreads (env : AppFrameEnv) (conf : AppFrameConf) :
    Except StartFault LoadedThreads := do
  let global ← loadGlobalThread env conf
  let work ← loadWorkThreads env conf
  let burden ← loadBurdenThreads env conf
  let tcp ← loadTcpThreads env conf
  let protoTcp ← loadProtoTcpThreads env conf
  let web ← loadWebThreads env conf
  .ok ⟨global, work, burden, tcp, protoTcp, web⟩

/-- One step of `CreateAllThreads`: under the condition `wanted`, `CreateThreadGroup` of a
module, which a thread that does not come up undoes. -/
def createGroup (env : AppFrameEnv) (module : ThreadsModule) (wanted : Bool)
    (loaded : Option ThreadsConf) (created : ℕ) : Except StartFault ℕ :=
  if wanted then
    match loaded with
    | none => .error .nullPointer
    | some conf =>
        if (List.range conf.threadCount.toNat).all (env.sinkInit module) then
          .ok (created + conf.threadCount.toNat)
        else .error (.create created)
  else .ok created

def createAllThreads (env : AppFrameEnv) (conf : AppFrameConf) (t : LoadedThreads) :
    Except StartFault ℕ := do
  let created ← createGroup env .global (conf.globalLogicSo.length > 0) t.global 0
  let created ← createGroup env .work (conf.workThreadCount > 0) t.work created
  let created ← createGroup env .burden (conf.burdenThreadCount > 0) t.burden created
  let created ← createGroup env .tcp (conf.rawTcp.threadCount > 0) t.tcp created
  let created ← createGroup env .protoTcp (conf.protoTcp.threadCount > 0) t.protoTcp created
  createGroup env .web (conf.web.threadCount > 0) t.web created

/-- `AppFrame::Initialize` up to `CreateAllThreads`: `app_frame_threads_count_`, the
modules, and how many threads were created. -/
def createFramework (env : AppFrameEnv) (conf : AppFrameConf) :
    Except StartFault (ℤ × LoadedThreads × ℕ) := do
  let count ← (loadAndCheckConf conf).mapError .conf
  let t ← loadAllThreads env conf
  let created ← createAllThreads env conf t
  .ok (count, t, created)

/-- The group of a module, for which `CreateThreadGroup` was called if it has threads; or
the pointer as it was before. -/
def getThreadGroup (before : ThreadGroupPointer) : Option ThreadsConf → ThreadGroupPointer
  | none => before
  | some conf =>
      if conf.threadCount > 0 then .group (createThreadGroup conf.threadCount conf.isInt)
      else .null

/-- `SetRelatedThreadGroups` of a module, which makes a call on each of its threads. -/
def relateThreads {σ : Type} (loaded : Option ThreadsConf)
    (relate : ThreadsConf → ℕ → Except SchedulerFault σ) : Except SchedulerFault (List σ) :=
  match loaded with
  | none => .ok []
  | some conf => do
      let count ← (getThreadGroup .null loaded).getThreadCount
      (List.range count.toNat).mapM (relate conf)

/-- The schedulers of all threads. -/
structure Schedulers where
  global : List WorkScheduler
  work : List WorkScheduler
  burden : List WorkScheduler
  tcp : List TcpScheduler
  protoTcp : List TcpScheduler
  web : List TcpScheduler

def setThreadsRelationship (env : AppFrameEnv) (t : LoadedThreads) :
    Except SchedulerFault Schedulers := do
  let work := getThreadGroup .null t.work
  let burden := getThreadGroup .null t.burden
  let related : WorkRelatedThreadGroups :=
    ⟨work, burden, getThreadGroup .null t.tcp, getThreadGroup .null t.protoTcp,
      getThreadGroup .indeterminate t.web⟩
  let global ← relateThreads t.global fun _ i =>
    WorkScheduler.setRelatedThreadGroups related (env.workRand .global i)
  let works ← relateThreads t.work fun _ i =>
    WorkScheduler.setRelatedThreadGroups related (env.workRand .work i)
  let burdens ← relateThreads t.burden fun _ i =>
    WorkScheduler.setRelatedThreadGroups ⟨.null, burden, .null, .null, .indeterminate⟩
      (env.workRand .burden i)
  let tcp ← relateThreads t.tcp fun conf i =>
    TcpScheduler.setRelatedThreadGroups conf.threadCount conf.isInt work (env.tcpRand .tcp i)
  let protoTcp ← relateThreads t.protoTcp fun conf i =>
    TcpScheduler.setRelatedThreadGroups conf.threadCount conf.isInt work
      (env.tcpRand .protoTcp i)
  let web ← relateThreads t.web fun conf i =>
    TcpScheduler.setRelatedThreadGroups conf.threadCount conf.isInt work (env.tcpRand .web i)
  .ok ⟨global, works, burdens, tcp, protoTcp, web⟩

/-- `AppFrame::Initialize`, with the threads created. -/
def appFrameInitialize (env : AppFrameEnv) (conf : AppFrameConf) :
    Except StartFault (ℤ × ℕ) := do
  let (count, t, created) ← createFramework env conf
  let _ ← (setThreadsRelationship env t).mapError .relate
  .ok (count, created)

/-- The loop condition in `Activate`, when `reported` threads have reported. -/
def activateWaits (count : ℤ) (reported : ℕ) : Bool := decide ((reported : ℤ) < count)

/-- The threads are those that were counted, and the wait is over when each of them has
reported, not before. -/
def AccountedFor (count : ℤ) (created : ℕ) : Prop :=
  count = created ∧
    ∀ reported ≤ created, activateWaits count reported = false ↔ reported = created

/-- What is to be there from outside: all modules, and the threads of all groups but
those of a section without an address. -/
structure AppFrameEnv.Works (env : AppFrameEnv) (conf : AppFrameConf) : Prop where
  loads : ∀ module, env.loads module
  global : ∀ i, env.sinkInit .global i
  work : ∀ i, env.sinkInit .work i
  burden : ∀ i, env.sinkInit .burden i
  tcp : conf.rawTcp.addr.length > 0 → ∀ i, env.sinkInit .tcp i
  protoTcp : conf.protoTcp.addr.length > 0 → ∀ i, env.sinkInit .protoTcp i
  web : conf.web.addr.length > 0 → ∀ i, env.sinkInit .web i

/-! ## What is counted and what is created -/

theorem reject_eq_ok {ε α : Type} {rejected : Prop} [Decidable rejected] {e : ε}
    {x : Except ε α} {a : α} (h : (if rejected then .error e else x) = .ok a) :
    ¬ rejected ∧ x = .ok a := by
  by_cases hrejected : rejected
  · rw [if_pos hrejected] at h
    cases h
  · rw [if_neg hrejected] at h
    exact ⟨hrejected, h⟩

theorem addThreads_eq_ok {count n count' : ℤ} (h : addThreads count n = .ok count') :
    count' = count + n := by
  unfold addThreads at h
  split_ifs at h with hint
  exact (Except.ok.inj h).symm

theorem addThreads_check {count n count' : ℤ} {rejected : Prop} [Decidable rejected]
    {e : ConfFault}
    (h : (addThreads count n >>= fun sum => if rejected then .error e else .ok sum) =
      .ok count') : count' = count + n := by
  obtain ⟨sum, hadd, hrest⟩ := except_bind_eq_ok.mp h
  rw [← Except.ok.inj (reject_eq_ok hrest).2, addThreads_eq_ok hadd]

def IoConf.counted (io : IoConf) : ℤ := if io.addr.length > 0 then io.threadCount else 0

theorem checkIo_eq_ok {name : String} {io : IoConf} {workThreadCount count count' : ℤ}
    (h : checkIo name io workThreadCount count = .ok count') : count' = count + io.counted := by
  unfold checkIo at h
  unfold IoConf.counted
  by_cases haddr : io.addr.length > 0
  · rw [if_pos haddr] at h ⊢
    exact addThreads_check (reject_eq_ok h).2
  · rw [if_neg haddr] at h ⊢
    rw [← Except.ok.inj h, add_zero]

theorem checkBurden_eq_ok {conf : AppFrameConf} {count count' : ℤ}
    (h : checkBurden conf count = .ok count') (hburden : 0 ≤ conf.burdenThreadCount) :
    count' = count + conf.burdenThreadCount := by
  unfold checkBurden at h
  by_cases hpos : conf.burdenThreadCount > 0
  · rw [if_pos hpos] at h
    exact addThreads_check h
  · rw [if_neg hpos] at h
    rw [← Except.ok.inj h]
    omega

theorem checkWork_eq_ok {conf : AppFrameConf} {count count' : ℤ}
    (h : checkWork conf count = .ok count') (hwork : 0 ≤ conf.workThreadCount) :
    count' = count + conf.workThreadCount := by
  unfold checkWork at h
  by_cases hpos : conf.workThreadCount > 0
  · rw [if_pos hpos] at h
    exact addThreads_check h
  · rw [if_neg hpos] at h
    rw [← Except.ok.inj h]
    omega

def AppFrameConf.globalThreads (conf : AppFrameConf) : ℕ :=
  if conf.globalLogicSo.length > 0 then 1 else 0

/-- What an accepted configuration counts; the burden threads come with work threads. -/
theorem loadAndCheckConf_eq_ok {conf : AppFrameConf} {count : ℤ} (hconf : conf.NonNeg)
    (h : loadAndCheckConf conf = .ok count) :
    count = conf.globalThreads + conf.rawTcp.counted + conf.protoTcp.counted + conf.web.counted +
        conf.burdenThreadCount + conf.workThreadCount ∧
      (conf.workThreadCount = 0 → conf.burdenThreadCount = 0) := by
  unfold loadAndCheckConf at h
  obtain ⟨global, hglobal, h⟩ := except_bind_eq_ok.mp h
  obtain ⟨tcp, htcp, h⟩ := except_bind_eq_ok.mp h
  obtain ⟨protoTcp, hproto, h⟩ := except_bind_eq_ok.mp h
  obtain ⟨web, hweb, h⟩ := except_bind_eq_ok.mp h
  obtain ⟨hburden, h⟩ := reject_eq_ok h
  obtain ⟨burden, hburdens, h⟩ := except_bind_eq_ok.mp h
  obtain ⟨work, hwork, h⟩ := except_bind_eq_ok.mp h
  obtain ⟨-, h⟩ := reject_eq_ok h
  have hglobal' : global = conf.globalThreads := by
    unfold checkGlobal at hglobal
    unfold AppFrameConf.globalThreads
    split_ifs at hglobal ⊢ with hso
    · exact addThreads_eq_ok hglobal
    · exact (Except.ok.inj hglobal).symm
  constructor
  · calc count = work := (Except.ok.inj h).symm
      _ = burden + conf.workThreadCount := checkWork_eq_ok hwork hconf.work
      _ = web + conf.burdenThreadCount + conf.workThreadCount := by
        rw [checkBurden_eq_ok hburdens hconf.burden]
      _ = _ := by rw [checkIo_eq_ok hweb, checkIo_eq_ok hproto, checkIo_eq_ok htcp, hglobal']
  · intro hzero
    have hnonneg := hconf.burden
    by_contra hne
    exact hburden ⟨hzero, by omega⟩

def AppFrameConf.threads (conf : AppFrameConf) : ℕ :=
  conf.globalThreads + conf.workThreadCount.toNat + conf.burdenThreadCount.toNat +
    conf.rawTcp.threadCount.toNat + conf.protoTcp.threadCount.toNat + conf.web.threadCount.toNat

/-- The modules of a configuration, where all of them load. -/
def AppFrameConf.loaded (conf : AppFrameConf) : LoadedThreads where
  global := if decide (conf.globalLogicSo.length = 0) then none else some ⟨1, by decide⟩
  work :=
    if decide (conf.workThreadCount = 0) then none
    else some ⟨conf.workThreadCount, conf.workIsInt⟩
  burden :=
    if conf.workThreadCount = 0 || conf.burdenThreadCount = 0 then none
    else some ⟨conf.burdenThreadCount, conf.burdenIsInt⟩
  tcp :=
    if decide (conf.rawTcp.threadCount = 0) then none
    else some ⟨conf.rawTcp.threadCount, conf.rawTcp.isInt⟩
  protoTcp :=
    if decide (conf.protoTcp.threadCount = 0) then none
    else some ⟨conf.protoTcp.threadCount, conf.protoTcp.isInt⟩
  web :=
    if decide (conf.web.threadCount = 0) then none
    else some ⟨conf.web.threadCount, conf.web.isInt⟩

theorem loadModule_eq_ok {env : AppFrameEnv} {module : ThreadsModule} {skip : Bool}
    {conf : ThreadsConf} {loaded : Option ThreadsConf}
    (h : loadModule env module skip conf = .ok loaded) :
    loaded = if skip then none else some conf := by
  unfold loadModule at h
  split_ifs at h ⊢
  · exact (Except.ok.inj h).symm
  · exact (Except.ok.inj h).symm

theorem loaded_of_loadAllThreads {env : AppFrameEnv} {conf : AppFrameConf} {t : LoadedThreads}
    (h : loadAllThreads env conf = .ok t) : t = conf.loaded := by
  unfold loadAllThreads at h
  obtain ⟨global, hglobal, h⟩ := except_bind_eq_ok.mp h
  obtain ⟨work, hwork, h⟩ := except_bind_eq_ok.mp h
  obtain ⟨burden, hburden, h⟩ := except_bind_eq_ok.mp h
  obtain ⟨tcp, htcp, h⟩ := except_bind_eq_ok.mp h
  obtain ⟨protoTcp, hproto, h⟩ := except_bind_eq_ok.mp h
  obtain ⟨web, hweb, h⟩ := except_bind_eq_ok.mp h
  rw [← Except.ok.inj h, loadModule_eq_ok hglobal, loadModule_eq_ok hwork,
    loadModule_eq_ok hburden, loadModule_eq_ok htcp, loadModule_eq_ok hproto,
    loadModule_eq_ok hweb]
  rfl

theorem group_eq_ok {env : AppFrameEnv} {module : ThreadsModule} {skip wanted : Bool}
    {conf : ThreadsConf} {created created' : ℕ}
    (h : createGroup env module wanted (if skip then none else some conf) created =
      .ok created') :
    created' = created + if wanted then conf.threadCount.toNat else 0 := by
  unfold createGroup at h
  cases wanted with
  | false => exact (Except.ok.inj h).symm
  | true =>
      cases skip with
      | true => cases h
      | false =>
          simp only [if_true, Bool.false_eq_true, if_false] at h ⊢
          split_ifs at h
          exact (Except.ok.inj h).symm

theorem toNat_of_pos (n : ℤ) : (if n > 0 then n.toNat else 0) = n.toNat := by
  split_ifs with hn
  · rfl
  · omega

theorem created_of_started {env : AppFrameEnv} {conf : AppFrameConf} {count : ℤ}
    {t : LoadedThreads} {created : ℕ}
    (h : createFramework env conf = .ok (count, t, created)) : created = conf.threads := by
  unfold createFramework at h
  obtain ⟨count', -, h⟩ := except_bind_eq_ok.mp h
  obtain ⟨t, hload, h⟩ := except_bind_eq_ok.mp h
  obtain ⟨total, hcreate, h⟩ := except_bind_eq_ok.mp h
  obtain rfl : total = created := congrArg (fun r => r.2.2) (Except.ok.inj h)
  rw [loaded_of_loadAllThreads hload] at hcreate
  unfold createAllThreads at hcreate
  obtain ⟨c₁, h₁, hcreate⟩ := except_bind_eq_ok.mp hcreate
  obtain ⟨c₂, h₂, hcreate⟩ := except_bind_eq_ok.mp hcreate
  obtain ⟨c₃, h₃, hcreate⟩ := except_bind_eq_ok.mp hcreate
  obtain ⟨c₄, h₄, hcreate⟩ := except_bind_eq_ok.mp hcreate
  obtain ⟨c₅, h₅, hcreate⟩ := except_bind_eq_ok.mp hcreate
  rw [group_eq_ok hcreate, group_eq_ok h₅, group_eq_ok h₄, group_eq_ok h₃, group_eq_ok h₂,
    group_eq_ok h₁]
  have hone : (1 : ℤ).toNat = 1 := rfl
  simp only [toNat_of_pos, hone, Nat.zero_add, AppFrameConf.threads, AppFrameConf.globalThreads,
    decide_eq_true_eq]

theorem group_ok {env : AppFrameEnv} {module : ThreadsModule} (skip wanted : Bool)
    (conf : ThreadsConf) (hload : env.loads module) (hskip : wanted → skip = false)
    (hinit : wanted → ∀ i, env.sinkInit module i) :
    loadModule env module skip conf = .ok (if skip then none else some conf) ∧
      ∀ created, ∃ created', createGroup env module wanted (if skip then none else some conf)
        created = .ok created' := by
  refine ⟨?_, fun created => ?_⟩
  · unfold loadModule
    rw [if_pos hload]
    cases skip <;> rfl
  · unfold createGroup
    cases wanted with
    | false => exact ⟨created, rfl⟩
    | true =>
        have hall : (List.range conf.threadCount.toNat).all (env.sinkInit module) = true :=
          List.all_eq_true.mpr fun i _ => hinit rfl i
        rw [hskip rfl]
        simp only [if_true, Bool.false_eq_true, if_false, hall]
        exact ⟨_, rfl⟩

/-- With all there is to be there, an accepted and consistent configuration has its
threads created. -/
theorem started_of_consistent {env : AppFrameEnv} {conf : AppFrameConf} {count : ℤ}
    (hconf : conf.NonNeg) (haccept : loadAndCheckConf conf = .ok count) (hworks : env.Works conf)
    (hconsistent : conf.Consistent) :
    ∃ created, createFramework env conf = .ok (count, conf.loaded, created) := by
  obtain ⟨htcp, hproto, hweb⟩ : (conf.rawTcp.addr.length = 0 → conf.rawTcp.threadCount = 0) ∧
      (conf.protoTcp.addr.length = 0 → conf.protoTcp.threadCount = 0) ∧
      (conf.web.addr.length = 0 → conf.web.threadCount = 0) := by
    simpa [AppFrameConf.Consistent, AppFrameConf.ioConfs] using hconsistent
  have hburden := (loadAndCheckConf_eq_ok hconf haccept).2
  have hpos {n : ℤ} (h : decide (n > 0) = true) : n ≠ 0 := by
    rw [decide_eq_true_eq] at h
    omega
  have hserved {io : IoConf} (hio : io.addr.length = 0 → io.threadCount = 0)
      (h : decide (io.threadCount > 0) = true) : io.addr.length > 0 :=
    Nat.pos_of_ne_zero fun hempty => hpos h (hio hempty)
  obtain ⟨load_global, create_global⟩ := group_ok (conf.globalLogicSo.length = 0)
    (conf.globalLogicSo.length > 0) ⟨1, by decide⟩ (hworks.loads .global)
    (fun h => decide_eq_false (Nat.pos_iff_ne_zero.mp (of_decide_eq_true h)))
    fun _ => hworks.global
  obtain ⟨load_work, create_work⟩ := group_ok (conf.workThreadCount = 0)
    (conf.workThreadCount > 0) ⟨_, conf.workIsInt⟩ (hworks.loads .work)
    (fun h => decide_eq_false (hpos h)) fun _ => hworks.work
  obtain ⟨load_burden, create_burden⟩ := group_ok
    (conf.workThreadCount = 0 || conf.burdenThreadCount = 0) (conf.burdenThreadCount > 0)
    ⟨_, conf.burdenIsInt⟩ (hworks.loads .burden)
    (fun h => by simpa using ⟨fun hwork => hpos h (hburden hwork), hpos h⟩) fun _ => hworks.burden
  obtain ⟨load_tcp, create_tcp⟩ := group_ok (conf.rawTcp.threadCount = 0)
    (conf.rawTcp.threadCount > 0) ⟨_, conf.rawTcp.isInt⟩ (hworks.loads .tcp)
    (fun h => decide_eq_false (hpos h)) fun h => hworks.tcp (hserved htcp h)
  obtain ⟨load_proto, create_proto⟩ := group_ok (conf.protoTcp.threadCount = 0)
    (conf.protoTcp.threadCount > 0) ⟨_, conf.protoTcp.isInt⟩ (hworks.loads .protoTcp)
    (fun h => decide_eq_false (hpos h)) fun h => hworks.protoTcp (hserved hproto h)
  obtain ⟨load_web, create_web⟩ := group_ok (conf.web.threadCount = 0)
    (conf.web.threadCount > 0) ⟨_, conf.web.isInt⟩ (hworks.loads .web)
    (fun h => decide_eq_false (hpos h)) fun h => hworks.web (hserved hweb h)
  have hload : loadAllThreads env conf = .ok conf.loaded := by
    unfold loadAllThreads loadGlobalThread loadWorkThreads loadBurdenThreads loadTcpThreads
      loadProtoTcpThreads loadWebThreads
    rw [load_global, load_work, load_burden, load_tcp, load_proto, load_web]
    rfl
  obtain ⟨c₁, h₁⟩ := create_global 0
  obtain ⟨c₂, h₂⟩ := create_work c₁
  obtain ⟨c₃, h₃⟩ := create_burden c₂
  obtain ⟨c₄, h₄⟩ := create_tcp c₃
  obtain ⟨c₅, h₅⟩ := create_proto c₄
  obtain ⟨c₆, h₆⟩ := create_web c₅
  have hcreate : createAllThreads env conf conf.loaded = .ok c₆ :=
    except_bind_eq_ok.mpr ⟨c₁, h₁, except_bind_eq_ok.mpr ⟨c₂, h₂, except_bind_eq_ok.mpr ⟨c₃, h₃,
      except_bind_eq_ok.mpr ⟨c₄, h₄, except_bind_eq_ok.mpr ⟨c₅, h₅, h₆⟩⟩⟩⟩⟩
  refine ⟨c₆, ?_⟩
  unfold createFramework
  rw [haccept, hload]
  exact except_bind_eq_ok.mpr ⟨count, rfl, except_bind_eq_ok.mpr ⟨_, rfl,
    except_bind_eq_ok.mpr ⟨c₆, hcreate, rfl⟩⟩⟩

/-! ## The pointers between the groups -/

theorem exists_mapM_ok_iff {α β ε : Type} {f : α → Except ε β} {l : List α} :
    (∃ r, l.mapM f = .ok r) ↔ ∀ a ∈ l, ∃ b, f a = .ok b := by
  induction l with
  | nil => simp [pure, Except.pure]
  | cons a l ih =>
      rw [List.mapM_cons, List.forall_mem_cons, ← ih]
      constructor
      · rintro ⟨r, h⟩
        obtain ⟨b, hb, h⟩ := except_bind_eq_ok.mp h
        obtain ⟨rest, hrest, -⟩ := except_bind_eq_ok.mp h
        exact ⟨⟨b, hb⟩, ⟨rest, hrest⟩⟩
      · rintro ⟨⟨b, hb⟩, ⟨rest, hrest⟩⟩
        exact ⟨b :: rest, except_bind_eq_ok.mpr ⟨b, hb,
          except_bind_eq_ok.mpr ⟨rest, hrest, rfl⟩⟩⟩

theorem exists_relateThreads_iff {σ : Type} {loaded : Option ThreadsConf}
    {relate : ThreadsConf → ℕ → Except SchedulerFault σ} {ok : Prop}
    (hpos : ∀ conf ∈ loaded, 0 < conf.threadCount)
    (hok : ∀ conf ∈ loaded, ∀ i, (∃ s, relate conf i = .ok s) ↔ ok) :
    (∃ r, relateThreads loaded relate = .ok r) ↔ (loaded ≠ none → ok) := by
  cases loaded with
  | none => simp [relateThreads]
  | some conf =>
      have hcount := hpos conf rfl
      have hgroup : (getThreadGroup .null (some conf)).getThreadCount =
          .ok (conf.threadCount.toNat : ℤ) := by
        simp [getThreadGroup, hcount, ThreadGroupPointer.getThreadCount, createThreadGroup]
      have hrun : relateThreads (some conf) relate =
          (List.range conf.threadCount.toNat).mapM (relate conf) := by
        simp only [relateThreads, hgroup, bind, Except.bind, Int.toNat_natCast]
      rw [hrun, exists_mapM_ok_iff]
      constructor
      · intro h _
        exact (hok conf rfl 0).mp (h 0 (List.mem_range.mpr (by omega)))
      · intro h i _
        exact (hok conf rfl i).mpr (h (Option.some_ne_none conf))

theorem getThreadGroup_isSet {before : ThreadGroupPointer} (hbefore : before.IsSet)
    (loaded : Option ThreadsConf) : (getThreadGroup before loaded).IsSet := by
  unfold getThreadGroup
  split
  · exact hbefore
  · split_ifs <;> exact nofun

theorem getThreadGroup_web_isSet_iff {loaded : Option ThreadsConf} :
    (getThreadGroup .indeterminate loaded).IsSet ↔ loaded ≠ none := by
  cases loaded with
  | none => simp [getThreadGroup, ThreadGroupPointer.IsSet]
  | some conf =>
      simp only [getThreadGroup, ThreadGroupPointer.IsSet]
      split_ifs <;> simp

/-- Every module that is loaded has threads. -/
structure LoadedThreads.Positive (t : LoadedThreads) : Prop where
  global : ∀ c ∈ t.global, 0 < c.threadCount
  work : ∀ c ∈ t.work, 0 < c.threadCount
  burden : ∀ c ∈ t.burden, 0 < c.threadCount
  tcp : ∀ c ∈ t.tcp, 0 < c.threadCount
  protoTcp : ∀ c ∈ t.protoTcp, 0 < c.threadCount
  web : ∀ c ∈ t.web, 0 < c.threadCount

theorem loaded_positive {conf : AppFrameConf} (hconf : conf.NonNeg) : conf.loaded.Positive := by
  have hpos : ∀ {skip : Bool} {c c' : ThreadsConf}, 0 ≤ c'.threadCount →
      (c'.threadCount = 0 → skip = true) →
        (if skip then none else some c') = some c → 0 < c.threadCount := by
    intro skip c c' hnonneg hskip h
    split_ifs at h with hnot
    obtain rfl := Option.some.inj h
    have hne : c'.threadCount ≠ 0 := fun hzero => hnot (hskip hzero)
    omega
  have hio : ∀ io ∈ conf.ioConfs, 0 ≤ io.threadCount := hconf.io
  simp only [AppFrameConf.ioConfs, List.forall_mem_cons] at hio
  refine ⟨fun c => hpos (by decide) (by simp), fun c => hpos hconf.work (by simp),
    fun c => hpos hconf.burden (by simp +contextual), fun c => hpos hio.1 (by simp),
    fun c => hpos hio.2.1 (by simp), fun c => hpos hio.2.2.1 (by simp)⟩

/-- The global and the work threads need the web group, and the burden threads, which are
never given it, cannot be there. -/
theorem exists_relationship_iff {t : LoadedThreads} (ht : t.Positive) (env : AppFrameEnv) :
    (∃ s, setThreadsRelationship env t = .ok s) ↔
      (t.global ≠ none → t.web ≠ none) ∧ (t.work ≠ none → t.web ≠ none) ∧
        (t.burden ≠ none → False) := by
  have hset : ∀ loaded : Option ThreadsConf, (getThreadGroup .null loaded).IsSet :=
    getThreadGroup_isSet nofun
  have hrelated : WorkRelatedThreadGroups.AllSet ⟨getThreadGroup .null t.work,
      getThreadGroup .null t.burden, getThreadGroup .null t.tcp,
      getThreadGroup .null t.protoTcp, getThreadGroup .indeterminate t.web⟩ ↔
        t.web ≠ none :=
    ⟨fun h => getThreadGroup_web_isSet_iff.mp h.web,
      fun h => ⟨hset _, hset _, hset _, hset _, getThreadGroup_web_isSet_iff.mpr h⟩⟩
  have hburdens : ¬WorkRelatedThreadGroups.AllSet ⟨.null, getThreadGroup .null t.burden, .null,
      .null, .indeterminate⟩ := fun h => h.web rfl
  have hglobal := exists_relateThreads_iff ht.global fun _ _ i =>
    (WorkScheduler.exists_setRelatedThreadGroups_iff (env.workRand .global i)).trans
      hrelated
  have hwork := exists_relateThreads_iff ht.work fun _ _ i =>
    (WorkScheduler.exists_setRelatedThreadGroups_iff (env.workRand .work i)).trans
      hrelated
  have hburdens' := exists_relateThreads_iff ht.burden fun _ _ i =>
    (WorkScheduler.exists_setRelatedThreadGroups_iff (env.workRand .burden i)).trans
      (iff_false_intro hburdens)
  have htcp : ∀ (loaded : Option ThreadsConf) (rand : ℕ → TcpTarget → ℕ),
      (∀ c ∈ loaded, 0 < c.threadCount) →
        ∃ r, relateThreads loaded (fun c i => TcpScheduler.setRelatedThreadGroups c.threadCount
          c.isInt (getThreadGroup .null t.work) (rand i)) = .ok r := by
    intro loaded rand hpos
    refine (exists_relateThreads_iff hpos fun c hc i => ?_).mpr fun _ => hset t.work
    refine TcpScheduler.exists_setRelatedThreadGroups_iff ?_ (rand i)
    have hcount := hpos c hc
    simp only [createThreadGroup]
    omega
  rw [← hglobal, ← hwork, ← hburdens']
  unfold setThreadsRelationship
  constructor
  · rintro ⟨s, h⟩
    obtain ⟨global, hglobal, h⟩ := except_bind_eq_ok.mp h
    obtain ⟨works, hworks, h⟩ := except_bind_eq_ok.mp h
    obtain ⟨burdens, hburdens, -⟩ := except_bind_eq_ok.mp h
    exact ⟨⟨global, hglobal⟩, ⟨works, hworks⟩, ⟨burdens, hburdens⟩⟩
  · rintro ⟨⟨global, hglobal⟩, ⟨works, hworks⟩, ⟨burdens, hburdens⟩⟩
    obtain ⟨tcp, htcp'⟩ := htcp t.tcp (env.tcpRand .tcp) ht.tcp
    obtain ⟨protoTcp, hproto⟩ := htcp t.protoTcp (env.tcpRand .protoTcp) ht.protoTcp
    obtain ⟨web, hweb⟩ := htcp t.web (env.tcpRand .web) ht.web
    exact ⟨_, except_bind_eq_ok.mpr ⟨global, hglobal, except_bind_eq_ok.mpr ⟨works, hworks,
      except_bind_eq_ok.mpr ⟨burdens, hburdens, except_bind_eq_ok.mpr ⟨tcp, htcp',
        except_bind_eq_ok.mpr ⟨protoTcp, hproto, except_bind_eq_ok.mpr ⟨web, hweb, rfl⟩⟩⟩⟩⟩⟩⟩

theorem exists_setThreadsRelationship_iff {conf : AppFrameConf} (hconf : conf.NonNeg)
    (hburden : conf.workThreadCount = 0 → conf.burdenThreadCount = 0) (env : AppFrameEnv) :
    (∃ s, setThreadsRelationship env conf.loaded = .ok s) ↔ conf.WebGroupSet := by
  have hskip : ∀ {skip : Bool} {c : ThreadsConf},
      (if skip then none else some c) ≠ none ↔ skip = false := by
    intro skip c
    cases skip <;> simp
  have hso : decide (conf.globalLogicSo.length = 0) = false ↔ conf.globalLogicSo.length > 0 := by
    rw [decide_eq_false_iff_not]
    omega
  have global_iff : conf.loaded.global ≠ none ↔ conf.globalLogicSo.length > 0 :=
    hskip.trans hso
  have work_iff : conf.loaded.work ≠ none ↔ conf.workThreadCount ≠ 0 :=
    hskip.trans decide_eq_false_iff_not
  have web_iff : conf.loaded.web ≠ none ↔ conf.web.threadCount ≠ 0 :=
    hskip.trans decide_eq_false_iff_not
  have burden_iff : conf.loaded.burden ≠ none ↔ conf.burdenThreadCount ≠ 0 := by
    refine hskip.trans ?_
    rw [Bool.or_eq_false_iff, decide_eq_false_iff_not, decide_eq_false_iff_not]
    exact ⟨fun h => h.2, fun h => ⟨fun hzero => h (hburden hzero), h⟩⟩
  rw [exists_relationship_iff (loaded_positive hconf) env, global_iff, work_iff, web_iff,
    burden_iff, AppFrameConf.WebGroupSet]
  constructor
  · rintro ⟨h₁, h₂, h₃⟩
    exact ⟨not_not.mp h₃, fun h => h.elim h₁ h₂⟩
  · rintro ⟨h₁, h₂⟩
    exact ⟨fun h => h₂ (.inl h), fun h => h₂ (.inr h), fun h => h h₁⟩

/-! ## The accounting -/

theorem accountedFor_iff (count : ℤ) (created : ℕ) :
    AccountedFor count created ↔ count = created := by
  constructor
  · exact And.left
  · rintro rfl
    refine ⟨rfl, fun reported hreported => ?_⟩
    rw [activateWaits, decide_eq_false_iff_not]
    omega

theorem IoConf.counted_eq_iff {io : IoConf} (hio : 0 ≤ io.threadCount) :
    io.counted ≤ io.threadCount.toNat ∧
      (io.counted = io.threadCount.toNat ↔ (io.addr.length = 0 → io.threadCount = 0)) := by
  unfold IoConf.counted
  split_ifs with haddr
  · refine ⟨by omega, fun _ h => by omega, fun _ => by omega⟩
  · exact ⟨by omega, by omega⟩

/-- The sections are counted by their address and created by their thread count, so the
numbers agree just when no section has threads without an address. -/
theorem counted_eq_iff_consistent {conf : AppFrameConf} {count : ℤ} (hconf : conf.NonNeg)
    (haccept : loadAndCheckConf conf = .ok count) :
    count = conf.threads ↔ conf.Consistent := by
  obtain ⟨hcount, -⟩ := loadAndCheckConf_eq_ok hconf haccept
  have hwork := hconf.work
  have hburden := hconf.burden
  obtain ⟨hraw, hrawIff⟩ :=
    IoConf.counted_eq_iff (hconf.io conf.rawTcp (by simp [AppFrameConf.ioConfs]))
  obtain ⟨hproto, hprotoIff⟩ :=
    IoConf.counted_eq_iff (hconf.io conf.protoTcp (by simp [AppFrameConf.ioConfs]))
  obtain ⟨hweb, hwebIff⟩ :=
    IoConf.counted_eq_iff (hconf.io conf.web (by simp [AppFrameConf.ioConfs]))
  have hsum : count = conf.threads ↔ conf.rawTcp.counted = conf.rawTcp.threadCount.toNat ∧
      conf.protoTcp.counted = conf.protoTcp.threadCount.toNat ∧
      conf.web.counted = conf.web.threadCount.toNat := by
    rw [hcount, AppFrameConf.threads]
    push_cast
    omega
  rw [hsum, hrawIff, hprotoIff, hwebIff]
  simp [AppFrameConf.Consistent, AppFrameConf.ioConfs]

theorem appFrameInitialize_eq_ok {env : AppFrameEnv} {conf : AppFrameConf} {count : ℤ}
    {created : ℕ} : appFrameInitialize env conf = .ok (count, created) ↔
      ∃ t, createFramework env conf = .ok (count, t, created) ∧
        ∃ s, setThreadsRelationship env t = .ok s := by
  unfold appFrameInitialize
  rw [except_bind_eq_ok]
  constructor
  · rintro ⟨⟨count', t, created'⟩, hcreate, h⟩
    obtain ⟨s, hrelate, h⟩ := except_bind_eq_ok.mp h
    obtain ⟨rfl, rfl⟩ := Prod.mk.inj (Except.ok.inj h)
    refine ⟨t, hcreate, ?_⟩
    cases hset : setThreadsRelationship env t with
    | error e =>
        rw [hset] at hrelate
        cases hrelate
    | ok s' => exact ⟨s', rfl⟩
  · rintro ⟨t, hcreate, s, hs⟩
    refine ⟨_, hcreate, except_bind_eq_ok.mpr ⟨s, ?_, rfl⟩⟩
    rw [hs]
    rfl

theorem loaded_of_createFramework {env : AppFrameEnv} {conf : AppFrameConf} {count : ℤ}
    {t : LoadedThreads} {created : ℕ}
    (h : createFramework env conf = .ok (count, t, created)) : t = conf.loaded := by
  unfold createFramework at h
  obtain ⟨count', -, h⟩ := except_bind_eq_ok.mp h
  obtain ⟨t', hload, h⟩ := except_bind_eq_ok.mp h
  obtain ⟨total, -, h⟩ := except_bind_eq_ok.mp h
  obtain rfl : t' = t := congrArg (fun r => r.2.1) (Except.ok.inj h)
  exact loaded_of_loadAllThreads hload

/-- **The threads of an accepted configuration** are accounted for exactly when each section
without an address has no threads; and `Initialize` is through with them only if every
pointer to the web group was set. -/
theorem startup_law {conf : AppFrameConf} {count : ℤ} (hconf : conf.NonNeg)
    (haccept : loadAndCheckConf conf = .ok count) :
    (∀ env t created, createFramework env conf = .ok (count, t, created) →
      (AccountedFor count created ↔ conf.Consistent)) ∧
      ∀ env : AppFrameEnv, env.Works conf →
        ((∃ t created, createFramework env conf = .ok (count, t, created) ∧
          AccountedFor count created) ↔ conf.Consistent) ∧
        ((∃ created, appFrameInitialize env conf = .ok (count, created) ∧
          AccountedFor count created) ↔ conf.Consistent ∧ conf.WebGroupSet) := by
  have hiff (env : AppFrameEnv) (t : LoadedThreads) (created : ℕ)
      (hstart : createFramework env conf = .ok (count, t, created)) :
      AccountedFor count created ↔ conf.Consistent := by
    rw [accountedFor_iff, created_of_started hstart, counted_eq_iff_consistent hconf haccept]
  refine ⟨hiff, fun env hworks => ⟨⟨?_, fun hconsistent => ?_⟩, ?_⟩⟩
  · rintro ⟨t, created, hstart, haccounted⟩
    exact (hiff env t created hstart).mp haccounted
  · obtain ⟨created, hstart⟩ := started_of_consistent hconf haccept hworks hconsistent
    exact ⟨_, created, hstart, (hiff env _ created hstart).mpr hconsistent⟩
  · have hrelate := exists_setThreadsRelationship_iff hconf
      (loadAndCheckConf_eq_ok hconf haccept).2 env
    constructor
    · rintro ⟨created, hinitialize, haccounted⟩
      obtain ⟨t, hstart, hset⟩ := appFrameInitialize_eq_ok.mp hinitialize
      rw [loaded_of_createFramework hstart] at hset
      exact ⟨(hiff env t created hstart).mp haccounted, hrelate.mp hset⟩
    · rintro ⟨hconsistent, hset⟩
      obtain ⟨created, hstart⟩ := started_of_consistent hconf haccept hworks hconsistent
      exact ⟨created, appFrameInitialize_eq_ok.mpr ⟨_, hstart, hrelate.mpr hset⟩,
        (hiff env _ created hstart).mpr hconsistent⟩

/-- A global thread, two work threads, one proto tcp thread and three web threads. -/
theorem startup_seven :
    ∃ created, appFrameInitialize ⟨fun _ => true, fun _ _ => true, fun _ _ _ => 5,
        fun _ _ _ => 7⟩
      ⟨"libglobal.so", 2, ["libwork.so"], 0, [], ⟨"", 0, [], by decide⟩,
        ⟨"127.0.0.1", 1, [], by decide⟩, ⟨"127.0.0.1", 3, [], by decide⟩, by decide,
          by decide⟩ = .ok (7, created) ∧
      AccountedFor 7 created := by
  have hconf : AppFrameConf.NonNeg ⟨"libglobal.so", 2, ["libwork.so"], 0, [],
      ⟨"", 0, [], by decide⟩, ⟨"127.0.0.1", 1, [], by decide⟩,
      ⟨"127.0.0.1", 3, [], by decide⟩, by decide, by decide⟩ :=
    ⟨by decide, by decide, by simp [AppFrameConf.ioConfs]⟩
  refine ((startup_law hconf rfl).2 _ ?_).2.mpr ⟨?_, ?_⟩
  · exact ⟨fun _ => rfl, fun _ => rfl, fun _ => rfl, fun _ => rfl, fun _ _ => rfl,
      fun _ _ => rfl, fun _ _ => rfl⟩
  · simp [AppFrameConf.Consistent, AppFrameConf.ioConfs]
  · simp [AppFrameConf.WebGroupSet]

/-- Two tcp threads without an address beside one proto tcp thread: whatever comes up,
they are not counted. -/
theorem startup_without_address :
    ¬ ∀ conf count, conf.NonNeg → loadAndCheckConf conf = .ok count →
      ∃ env t created, createFramework env conf = .ok (count, t, created) ∧
        AccountedFor count created := by
  intro h
  have hconf : AppFrameConf.NonNeg ⟨"", 0, [], 0, [], ⟨"", 2, [], by decide⟩,
      ⟨"127.0.0.1", 1, ["libproto.so"], by decide⟩, ⟨"", 0, [], by decide⟩, by decide,
      by decide⟩ :=
    ⟨by decide, by decide, by simp [AppFrameConf.ioConfs]⟩
  obtain ⟨env, t, created, hstart, hcount, -⟩ := h _ 1 hconf rfl
  rw [created_of_started hstart] at hcount
  exact absurd hcount (by decide)

end CommonComponent
