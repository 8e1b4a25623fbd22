import CommonComponent.RoundRobin

/-!
# The schedulers of the io threads and of the work threads

A scheduler picks the thread for a message.  There is one in each thread, with a last
index for every group it sends to.  `SetRelatedThreadGroups` draws these at random; the
io thread's own index is drawn from the thread count of the configuration, the one of
which its group was created, and moves on by the size of the group.

The constructor of `RelatedThreadGroups` leaves `web_thread_group` out, so a pointer to
a group may also be one that was never set.
-/

namespace CommonComponent

open RoundRobin

inductive SchedulerFault
  | remainderByZero
  | overflow
  | badPointer
deriving DecidableEq

/-- `ThreadGroup`, whose `GetThreadCount` is an `int`. -/
structure ThreadGroup where
  threadCount : ℕ
  isInt : threadCount < 2 ^ 31

/-- The loop of `CreateThreadGroup` creates as many threads as the configuration asks
for. -/
def createThreadGroup (threadCount : ℤ) (h : threadCount < 2 ^ 31) : ThreadGroup :=
  ⟨threadCount.toNat, by omega⟩

inductive ThreadGroupPointer
  | null
  | indeterminate
  | group (g : ThreadGroup)

namespace ThreadGroupPointer

def count : ThreadGroupPointer → ℕ
  | .group g => g.threadCount
  | _ => 0

def getThreadCount : ThreadGroupPointer → Except SchedulerFault ℤ
  | .group g => .ok g.threadCount
  | _ => .error .badPointer

/-- It is null or a group. -/
def IsSet (group : ThreadGroupPointer) : Prop := group ≠ .indeterminate

end ThreadGroupPointer

def remainder (a b : ℤ) : Except SchedulerFault ℤ :=
  if b = 0 then .error .remainderByZero else .ok (a.tmod b)

def increment (last : ℤ) : Except SchedulerFault ℤ :=
  if 2 ^ 31 ≤ last + 1 then .error .overflow else .ok (last + 1)

def invalidIdx (idx min max : ℤ) : Bool := decide (idx < min) || decide (idx ≥ max)

/-- The first index for a group: drawn with `rand` if the group has threads. -/
def firstIdx (group : ThreadGroupPointer) (rand : ℕ) (last : ℤ) : Except SchedulerFault ℤ :=
  match group with
  | .null => .ok last
  | _ => do
      let count ← group.getThreadCount
      if count > 0 then remainder rand count else .ok last

/-- The body of `GetSchedule...ThreadIdx`: the index used and the last one after it. -/
def scheduleIdx (group : ThreadGroupPointer) (last idx : ℤ) : Except SchedulerFault (ℤ × ℤ) := do
  let count ← group.getThreadCount
  if invalidIdx idx 0 count then
    let next ← increment last
    let last' ← remainder next count
    .ok (last, last')
  else .ok (idx, last)

/-! ## The scheduler of a work thread -/

inductive WorkTarget
  | work
  | burden
  | tcp
  | protoTcp
  | web
deriving DecidableEq

structure WorkRelatedThreadGroups where
  workThreadGroup : ThreadGroupPointer
  burdenThreadGroup : ThreadGroupPointer
  tcpThreadGroup : ThreadGroupPointer
  protoTcpThreadGroup : ThreadGroupPointer
  webThreadGroup : ThreadGroupPointer

structure WorkRelatedThreadGroups.AllSet (groups : WorkRelatedThreadGroups) : Prop where
  work : groups.workThreadGroup.IsSet
  burden : groups.burdenThreadGroup.IsSet
  tcp : groups.tcpThreadGroup.IsSet
  protoTcp : groups.protoTcpThreadGroup.IsSet
  web : groups.webThreadGroup.IsSet

structure WorkScheduler where
  relatedThreadGroups : WorkRelatedThreadGroups
  lastWorkThreadIdx : ℤ
  lastBurdenThreadIdx : ℤ
  lastTcpThreadIdx : ℤ
  lastProtoTcpThreadIdx : ℤ
  lastWebThreadIdx : ℤ

namespace WorkScheduler

/-- `SetRelatedThreadGroups` of a new scheduler; `rand` are the numbers drawn. -/
def setRelatedThreadGroups (groups : WorkRelatedThreadGroups) (rand : WorkTarget → ℕ) :
    Except SchedulerFault WorkScheduler := do
  let work ← firstIdx groups.workThreadGroup (rand .work) 0
  let burden ← firstIdx groups.burdenThreadGroup (rand .burden) 0
  let tcp ← firstIdx groups.tcpThreadGroup (rand .tcp) 0
  let protoTcp ← firstIdx groups.protoTcpThreadGroup (rand .protoTcp) 0
  let web ← firstIdx groups.webThreadGroup (rand .web) 0
  .ok ⟨groups, work, burden, tcp, protoTcp, web⟩

def getScheduleWorkThreadIdx (s : WorkScheduler) (idx : ℤ) :
    Except SchedulerFault (ℤ × WorkScheduler) := do
  let (used, last) ← scheduleIdx s.relatedThreadGroups.workThreadGroup s.lastWorkThreadIdx idx
  .ok (used, { s with lastWorkThreadIdx := last })

def getScheduleBurdenThreadIdx (s : WorkScheduler) (idx : ℤ) :
    Except SchedulerFault (ℤ × WorkScheduler) := do
  let (used, last) ←
    scheduleIdx s.relatedThreadGroups.burdenThreadGroup s.lastBurdenThreadIdx idx
  .ok (used, { s with lastBurdenThreadIdx := last })

def getScheduleTcpThreadIdx (s : WorkScheduler) (idx : ℤ) :
    Except SchedulerFault (ℤ × WorkScheduler) := do
  let (used, last) ← scheduleIdx s.relatedThreadGroups.tcpThreadGroup s.lastTcpThreadIdx idx
  .ok (used, { s with lastTcpThreadIdx := last })

def getScheduleProtoTcpThreadIdx (s : WorkScheduler) (idx : ℤ) :
    Except SchedulerFault (ℤ × WorkScheduler) := do
  let (used, last) ←
    scheduleIdx s.relatedThreadGroups.protoTcpThreadGroup s.lastProtoTcpThreadIdx idx
  .ok (used, { s with lastProtoTcpThreadIdx := last })

def getScheduleWebThreadIdx (s : WorkScheduler) (idx : ℤ) :
    Except SchedulerFault (ℤ × WorkScheduler) := do
  let (used, last) ← scheduleIdx s.relatedThreadGroups.webThreadGroup s.lastWebThreadIdx idx
  .ok (used, { s with lastWebThreadIdx := last })

def group (s : WorkScheduler) : WorkTarget → ThreadGroupPointer
  | .work => s.relatedThreadGroups.workThreadGroup
  | .burden => s.relatedThreadGroups.burdenThreadGroup
  | .tcp => s.relatedThreadGroups.tcpThreadGroup
  | .protoTcp => s.relatedThreadGroups.protoTcpThreadGroup
  | .web => s.relatedThreadGroups.webThreadGroup

def last (s : WorkScheduler) : WorkTarget → ℤ
  | .work => s.lastWorkThreadIdx
  | .burden => s.lastBurdenThreadIdx
  | .tcp => s.lastTcpThreadIdx
  | .protoTcp => s.lastProtoTcpThreadIdx
  | .web => s.lastWebThreadIdx

def schedule (s : WorkScheduler) : WorkTarget → ℤ → Except SchedulerFault (ℤ × WorkScheduler)
  | .work => s.getScheduleWorkThreadIdx
  | .burden => s.getScheduleBurdenThreadIdx
  | .tcp => s.getScheduleTcpThreadIdx
  | .protoTcp => s.getScheduleProtoTcpThreadIdx
  | .web => s.getScheduleWebThreadIdx

def dispatcher : Dispatcher WorkScheduler WorkTarget where
  dispatch := fun s target idx => (s.schedule target idx).toOption
  cursor := last
  count := fun s target => (s.group target).count

end WorkScheduler

/-! ## The scheduler of an io thread -/

inductive TcpTarget
  | work
  | tcp
deriving DecidableEq

structure TcpScheduler where
  workThreadGroup : ThreadGroupPointer
  tcpThreadGroup : ThreadGroup
  lastWorkThreadIdx : ℤ
  lastTcpThreadIdx : ℤ

namespace TcpScheduler

/-- `SetRelatedThreadGroups` of a new scheduler in a group for the configuration. -/
def setRelatedThreadGroups (confThreadCount : ℤ) (h : confThreadCount < 2 ^ 31)
    (workThreadGroup : ThreadGroupPointer) (rand : TcpTarget → ℕ) :
    Except SchedulerFault TcpScheduler := do
  let work ← firstIdx workThreadGroup (rand .work) 0
  -- no check of the count here
  let tcp ← remainder (rand .tcp) confThreadCount
  .ok ⟨workThreadGroup, createThreadGroup confThreadCount h, work, tcp⟩

def getScheduleWorkThreadIdx (s : TcpScheduler) (idx : ℤ) :
    Except SchedulerFault (ℤ × TcpScheduler) := do
  let (used, last) ← scheduleIdx s.workThreadGroup s.lastWorkThreadIdx idx
  .ok (used, { s with lastWorkThreadIdx := last })

def getScheduleTcpThreadIdx (s : TcpScheduler) (idx : ℤ) :
    Except SchedulerFault (ℤ × TcpScheduler) := do
  let (used, last) ← scheduleIdx (.group s.tcpThreadGroup) s.lastTcpThreadIdx idx
  .ok (used, { s with lastTcpThreadIdx := last })

def group (s : TcpScheduler) : TcpTarget → ThreadGroupPointer
  | .work => s.workThreadGroup
  | .tcp => .group s.tcpThreadGroup

def last (s : TcpScheduler) : TcpTarget → ℤ
  | .work => s.lastWorkThreadIdx
  | .tcp => s.lastTcpThreadIdx

def schedule (s : TcpScheduler) : TcpTarget → ℤ → Except SchedulerFault (ℤ × TcpScheduler)
  | .work => s.getScheduleWorkThreadIdx
  | .tcp => s.getScheduleTcpThreadIdx

def dispatcher : Dispatcher TcpScheduler TcpTarget where
  dispatch := fun s target idx => (s.schedule target idx).toOption
  cursor := last
  count := fun s target => (s.group target).count

end TcpScheduler

/-! ## The rotation -/

theorem except_bind_eq_ok {ε α β : Type} {x : Except ε α} {f : α → Except ε β} {b : β} :
    (x >>= f) = .ok b ↔ ∃ a, x = .ok a ∧ f a = .ok b := by
  cases x with
  | error e => simp [bind, Except.bind]
  | ok a => simp [bind, Except.bind]

theorem remainder_of_pos (a : ℤ) {b : ℤ} (hb : 0 < b) : remainder a b = .ok (a.tmod b) :=
  if_neg (by omega)

theorem invalidIdx_iff (idx : ℤ) (n : ℕ) : invalidIdx idx 0 n = true ↔ ¬ Valid idx n := by
  simp only [invalidIdx, Valid, Bool.or_eq_true, decide_eq_true_eq]
  omega

theorem firstIdx_spec {group : ThreadGroupPointer} (hset : group.IsSet) (rand : ℕ) :
    ∃ last, firstIdx group rand 0 = .ok last ∧
      (1 ≤ group.count → Valid last group.count) := by
  cases group with
  | null => exact ⟨0, rfl, fun h => absurd h (by decide)⟩
  | indeterminate => exact absurd rfl hset
  | group g =>
      simp only [firstIdx, ThreadGroupPointer.getThreadCount, ThreadGroupPointer.count, bind,
        Except.bind]
      by_cases hcount : (g.threadCount : ℤ) > 0
      · rw [if_pos hcount, remainder_of_pos _ hcount]
        refine ⟨_, rfl, fun _ => ?_⟩
        rw [Int.tmod_eq_emod_of_nonneg (Int.natCast_nonneg rand)]
        exact valid_emod _ (by omega)
      · rw [if_neg hcount]
        exact ⟨0, rfl, fun h => absurd h (by omega)⟩

theorem isSet_of_firstIdx {group : ThreadGroupPointer} {rand : ℕ} {last : ℤ}
    (h : firstIdx group rand 0 = .ok last) : group.IsSet := by
  rintro rfl
  cases h

theorem scheduleIdx_explicit {group : ThreadGroupPointer} {idx : ℤ} (h : Valid idx group.count)
    (last : ℤ) : scheduleIdx group last idx = .ok (idx, last) := by
  cases group with
  | null => exact absurd h.2 (not_lt.mpr h.1)
  | indeterminate => exact absurd h.2 (not_lt.mpr h.1)
  | group g =>
      have hvalid : ¬ invalidIdx idx 0 g.threadCount = true := by
        rw [invalidIdx_iff, not_not]
        exact h
      simp [scheduleIdx, ThreadGroupPointer.getThreadCount, bind, Except.bind, hvalid]

theorem scheduleIdx_turn {group : ThreadGroupPointer} {last idx : ℤ}
    (hidx : ¬ Valid idx group.count) (hlast : Valid last group.count) :
    scheduleIdx group last idx = .ok (last, (last + 1) % group.count) := by
  cases group with
  | null => exact absurd hlast.2 (not_lt.mpr hlast.1)
  | indeterminate => exact absurd hlast.2 (not_lt.mpr hlast.1)
  | group g =>
      obtain ⟨hnonneg, hlt⟩ : 0 ≤ last ∧ last < g.threadCount := hlast
      have hinvalid : invalidIdx idx 0 g.threadCount = true := (invalidIdx_iff idx _).mpr hidx
      have hint : (g.threadCount : ℤ) < 2 ^ 31 := by exact_mod_cast g.isInt
      have hnext : increment last = .ok (last + 1) := if_neg (by omega)
      simp only [scheduleIdx, ThreadGroupPointer.getThreadCount, ThreadGroupPointer.count, bind,
        Except.bind, hinvalid, if_true, hnext, remainder_of_pos _ (hnonneg.trans_lt hlt),
        Int.tmod_eq_emod_of_nonneg (by omega : 0 ≤ last + 1)]

section Rotation

variable {σ κ : Type} [DecidableEq κ] {schedule : σ → κ → ℤ → Except SchedulerFault (ℤ × σ)}
  {group : σ → κ → ThreadGroupPointer} {last : σ → κ → ℤ} {setLast : σ → κ → ℤ → σ}

theorem rotates_of_schedule (hgroup : ∀ s target n, group (setLast s target n) = group s)
    (hlast : ∀ s target n, last (setLast s target n) = Function.update (last s) target n)
    (hself : ∀ s target, setLast s target (last s target) = s)
    (hschedule : ∀ s target idx used next,
      scheduleIdx (group s target) (last s target) idx = .ok (used, next) →
        schedule s target idx = .ok (used, setLast s target next)) :
    Dispatcher.Rotates ⟨fun s target idx => (schedule s target idx).toOption, last,
      fun s target => (group s target).count⟩ where
  explicit := fun s target idx h => by
    have hidx := hschedule s target idx idx _ (scheduleIdx_explicit h (last s target))
    rw [hself] at hidx
    exact congrArg Except.toOption hidx
  turn := fun s target idx hidx hcursor => by
    have hturn := hschedule s target idx _ _ (scheduleIdx_turn hidx hcursor)
    refine ⟨_, congrArg Except.toOption hturn, hlast s target _, ?_⟩
    simp only [hgroup]

end Rotation

namespace WorkScheduler

def setLast (s : WorkScheduler) (target : WorkTarget) (last : ℤ) : WorkScheduler :=
  match target with
  | .work => { s with lastWorkThreadIdx := last }
  | .burden => { s with lastBurdenThreadIdx := last }
  | .tcp => { s with lastTcpThreadIdx := last }
  | .protoTcp => { s with lastProtoTcpThreadIdx := last }
  | .web => { s with lastWebThreadIdx := last }

theorem group_setLast (s : WorkScheduler) (target : WorkTarget) (last : ℤ) :
    (s.setLast target last).group = s.group := by
  cases target <;> rfl

theorem last_setLast (s : WorkScheduler) (target : WorkTarget) (last : ℤ) :
    (s.setLast target last).last = Function.update s.last target last := by
  funext target'
  cases target <;> cases target' <;> rfl

theorem setLast_self (s : WorkScheduler) (target : WorkTarget) :
    s.setLast target (s.last target) = s := by
  cases target <;> rfl

/-- The five functions are one, over the group and its last index. -/
theorem schedule_of_eq {s : WorkScheduler} {target : WorkTarget} {idx used next : ℤ}
    (h : scheduleIdx (s.group target) (s.last target) idx = .ok (used, next)) :
    s.schedule target idx = .ok (used, s.setLast target next) := by
  cases target with
  | work =>
      rw [group, last] at h
      rw [schedule, getScheduleWorkThreadIdx, h]
      rfl
  | burden =>
      rw [group, last] at h
      rw [schedule, getScheduleBurdenThreadIdx, h]
      rfl
  | tcp =>
      rw [group, last] at h
      rw [schedule, getScheduleTcpThreadIdx, h]
      rfl
  | protoTcp =>
      rw [group, last] at h
      rw [schedule, getScheduleProtoTcpThreadIdx, h]
      rfl
  | web =>
      rw [group, last] at h
      rw [schedule, getScheduleWebThreadIdx, h]
      rfl

theorem rotates : dispatcher.Rotates :=
  rotates_of_schedule group_setLast last_setLast setLast_self fun _ _ _ _ _ => schedule_of_eq

/-- Where all pointers are set a new scheduler has its last indices in range. -/
theorem setRelatedThreadGroups_spec {groups : WorkRelatedThreadGroups} (hset : groups.AllSet)
    (rand : WorkTarget → ℕ) :
    ∃ s, setRelatedThreadGroups groups rand = .ok s ∧ dispatcher.InRange s := by
  obtain ⟨work, hwork, work_range⟩ := firstIdx_spec hset.work (rand .work)
  obtain ⟨burden, hburden, burden_range⟩ := firstIdx_spec hset.burden (rand .burden)
  obtain ⟨tcp, htcp, tcp_range⟩ := firstIdx_spec hset.tcp (rand .tcp)
  obtain ⟨protoTcp, hproto, proto_range⟩ := firstIdx_spec hset.protoTcp (rand .protoTcp)
  obtain ⟨web, hweb, web_range⟩ := firstIdx_spec hset.web (rand .web)
  refine ⟨⟨groups, work, burden, tcp, protoTcp, web⟩, ?_, fun target => ?_⟩
  · unfold setRelatedThreadGroups
    rw [hwork, hburden, htcp, hproto, hweb]
    rfl
  · cases target with
    | work => exact work_range
    | burden => exact burden_range
    | tcp => exact tcp_range
    | protoTcp => exact proto_range
    | web => exact web_range

theorem allSet_of_setRelatedThreadGroups {groups : WorkRelatedThreadGroups}
    {rand : WorkTarget → ℕ} {s : WorkScheduler}
    (h : setRelatedThreadGroups groups rand = .ok s) : groups.AllSet := by
  unfold setRelatedThreadGroups at h
  obtain ⟨work, hwork, h⟩ := except_bind_eq_ok.mp h
  obtain ⟨burden, hburden, h⟩ := except_bind_eq_ok.mp h
  obtain ⟨tcp, htcp, h⟩ := except_bind_eq_ok.mp h
  obtain ⟨protoTcp, hproto, h⟩ := except_bind_eq_ok.mp h
  obtain ⟨web, hweb, -⟩ := except_bind_eq_ok.mp h
  exact ⟨isSet_of_firstIdx hwork, isSet_of_firstIdx hburden, isSet_of_firstIdx htcp,
    isSet_of_firstIdx hproto, isSet_of_firstIdx hweb⟩

theorem exists_setRelatedThreadGroups_iff {groups : WorkRelatedThreadGroups}
    (rand : WorkTarget → ℕ) :
    (∃ s, setRelatedThreadGroups groups rand = .ok s) ↔ groups.AllSet := by
  constructor
  · rintro ⟨s, hs⟩
    exact allSet_of_setRelatedThreadGroups hs
  · intro hset
    obtain ⟨s, hs, -⟩ := setRelatedThreadGroups_spec hset rand
    exact ⟨s, hs⟩

end WorkScheduler

namespace TcpScheduler

def setLast (s : TcpScheduler) (target : TcpTarget) (last : ℤ) : TcpScheduler :=
  match target with
  | .work => { s with lastWorkThreadIdx := last }
  | .tcp => { s with lastTcpThreadIdx := last }

theorem group_setLast (s : TcpScheduler) (target : TcpTarget) (last : ℤ) :
    (s.setLast target last).group = s.group := by
  cases target <;> rfl

theorem last_setLast (s : TcpScheduler) (target : TcpTarget) (last : ℤ) :
    (s.setLast target last).last = Function.update s.last target last := by
  funext target'
  cases target <;> cases target' <;> rfl

theorem setLast_self (s : TcpScheduler) (target : TcpTarget) :
    s.setLast target (s.last target) = s := by
  cases target <;> rfl

theorem schedule_of_eq {s : TcpScheduler} {target : TcpTarget} {idx used next : ℤ}
    (h : scheduleIdx (s.group target) (s.last target) idx = .ok (used, next)) :
    s.schedule target idx = .ok (used, s.setLast target next) := by
  cases target with
  | work =>
      rw [group, last] at h
      rw [schedule, getScheduleWorkThreadIdx, h]
      rfl
  | tcp =>
      rw [group, last] at h
      rw [schedule, getScheduleTcpThreadIdx, h]
      rfl

theorem rotates : dispatcher.Rotates :=
  rotates_of_schedule group_setLast last_setLast setLast_self fun _ _ _ _ _ => schedule_of_eq

/-- The count of the configuration is that of the group, in each of its threads. -/
theorem setRelatedThreadGroups_spec {confThreadCount : ℤ} {h : confThreadCount < 2 ^ 31}
    (hthread : 0 < (createThreadGroup confThreadCount h).threadCount)
    {workThreadGroup : ThreadGroupPointer} (hset : workThreadGroup.IsSet)
    (rand : TcpTarget → ℕ) :
    ∃ s, setRelatedThreadGroups confThreadCount h workThreadGroup rand = .ok s ∧
      dispatcher.InRange s := by
  have hpos : 0 < confThreadCount := by
    have hthread' : 0 < confThreadCount.toNat := hthread
    omega
  obtain ⟨work, hwork, work_range⟩ := firstIdx_spec hset (rand .work)
  refine ⟨⟨workThreadGroup, createThreadGroup confThreadCount h, work,
    (rand .tcp : ℤ).tmod confThreadCount⟩, ?_, fun target => ?_⟩
  · unfold setRelatedThreadGroups
    rw [hwork, remainder_of_pos _ hpos]
    rfl
  · cases target with
    | work => exact work_range
    | tcp =>
        intro hn
        have hcount : ((createThreadGroup confThreadCount h).threadCount : ℤ) = confThreadCount :=
          Int.toNat_of_nonneg hpos.le
        have hlast : (rand .tcp : ℤ).tmod confThreadCount =
            (rand .tcp : ℤ) % (createThreadGroup confThreadCount h).threadCount := by
          rw [Int.tmod_eq_emod_of_nonneg (Int.natCast_nonneg _), hcount]
        change Valid ((rand .tcp : ℤ).tmod confThreadCount) _
        rw [hlast]
        exact valid_emod _ hn

theorem isSet_of_setRelatedThreadGroups {confThreadCount : ℤ} {h : confThreadCount < 2 ^ 31}
    {workThreadGroup : ThreadGroupPointer} {rand : TcpTarget → ℕ} {s : TcpScheduler}
    (hs : setRelatedThreadGroups confThreadCount h workThreadGroup rand = .ok s) :
    workThreadGroup.IsSet := by
  unfold setRelatedThreadGroups at hs
  obtain ⟨work, hwork, -⟩ := except_bind_eq_ok.mp hs
  exact isSet_of_firstIdx hwork

theorem exists_setRelatedThreadGroups_iff {confThreadCount : ℤ} {h : confThreadCount < 2 ^ 31}
    (hthread : 0 < (createThreadGroup confThreadCount h).threadCount)
    {workThreadGroup : ThreadGroupPointer} (rand : TcpTarget → ℕ) :
    (∃ s, setRelatedThreadGroups confThreadCount h workThreadGroup rand = .ok s) ↔
      workThreadGroup.IsSet := by
  constructor
  · rintro ⟨s, hs⟩
    exact isSet_of_setRelatedThreadGroups hs
  · intro hset
    obtain ⟨s, hs, -⟩ := setRelatedThreadGroups_spec hthread hset rand
    exact ⟨s, hs⟩

end TcpScheduler

/-- **The schedulers rotate**, those of the work threads for all their groups and those of
the io threads in every thread of a group that was created, exactly if each pointer to a
group was set. -/
theorem scheduler_law (groups : WorkRelatedThreadGroups) (rand : WorkTarget → ℕ) :
    ((∃ s, WorkScheduler.setRelatedThreadGroups groups rand = .ok s ∧
          WorkScheduler.dispatcher.Fair s) ↔
        groups.AllSet) ∧
      ∀ confThreadCount h work rand,
        0 < (createThreadGroup confThreadCount h).threadCount →
          ((∃ s, TcpScheduler.setRelatedThreadGroups confThreadCount h work rand = .ok s ∧
              TcpScheduler.dispatcher.Fair s) ↔
            work.IsSet) := by
  constructor
  · constructor
    · rintro ⟨s, hs, -⟩
      exact WorkScheduler.allSet_of_setRelatedThreadGroups hs
    · intro hset
      obtain ⟨s, hs, hrange⟩ := WorkScheduler.setRelatedThreadGroups_spec hset rand
      exact ⟨s, hs, WorkScheduler.rotates.fair hrange⟩
  · intro confThreadCount h work rand hthread
    constructor
    · rintro ⟨s, hs, -⟩
      exact TcpScheduler.isSet_of_setRelatedThreadGroups hs
    · intro hset
      obtain ⟨s, hs, hrange⟩ := TcpScheduler.setRelatedThreadGroups_spec hthread hset rand
      exact ⟨s, hs, TcpScheduler.rotates.fair hrange⟩

/-- A work thread that sends to three tcp threads, its web group null, and one of the tcp
threads. -/
theorem scheduler_three :
    (∃ s, WorkScheduler.setRelatedThreadGroups
        ⟨.null, .null, .group ⟨3, by decide⟩, .null, .null⟩ (fun _ => 5) = .ok s ∧
      WorkScheduler.dispatcher.Fair s) ∧
      ∃ s, TcpScheduler.setRelatedThreadGroups 3 (by decide) .null (fun _ => 7) = .ok s ∧
        TcpScheduler.dispatcher.Fair s :=
  ⟨(scheduler_law _ _).1.mpr ⟨nofun, nofun, nofun, nofun, nofun⟩,
    ((scheduler_law ⟨.null, .null, .null, .null, .null⟩ fun _ => 0).2 3 (by decide) .null _
      (by decide)).mpr nofun⟩

/-- A burden thread, for which no web group is set. -/
theorem not_scheduler_burden :
    ¬∀ groups rand, ∃ s, WorkScheduler.setRelatedThreadGroups groups rand = .ok s ∧
      WorkScheduler.dispatcher.Fair s := by
  intro h
  obtain ⟨s, hs, -⟩ :=
    h ⟨.null, .group ⟨1, by decide⟩, .null, .null, .indeterminate⟩ fun _ => 0
  exact (WorkScheduler.allSet_of_setRelatedThreadGroups hs).web rfl

end CommonComponent
