import CommonComponent.ThreadTaskQueue

/-!
# The order of commands to a thread

A notification goes straight to the pipe, or into the list when the pipe is full,
and the next one may go straight to the pipe again while the list still waits.  The
bytes of the pipe and of the list, in this order, are the ones the loop is going to
read; an invariant on what is in front of each command says when it is in order.
-/

namespace CommonComponent

namespace ThreadState

open LabelledRun

variable {S T : Type*}

/-- The task or the command of a call has been given to the sink. -/
def Processed (s : ThreadState S T) (issue : ℕ) : Prop :=
  (∃ task ∈ s.handed, task.issue = issue) ∨ ∃ cmd ∈ s.ran, cmd.issue = issue

/-- A command that is read takes effect behind everything issued before it; a stop
that comes again has no effect. -/
def InOrder (s : ThreadState S T) (a : ThreadAction S T) (s' : ThreadState S T) :
    Prop :=
  match a, s.pipe with
  | .readCallback true, ⟨issue, .command cmd⟩ :: _ =>
      (cmd = .stop ∧ s.stopping = true) ∨
        (∀ earlier < issue, s'.Processed earlier) ∧
          ∀ task ∈ s'.pushed, task.issue < issue → task ∈ s'.handed
  | _, _ => True

def Has (cmd : ThreadCommand) (bytes : List (Issued NotifyByte)) : Prop :=
  ∃ byte ∈ bytes, byte.what = .command cmd

instance (cmd : ThreadCommand) (bytes : List (Issued NotifyByte)) :
    Decidable (Has cmd bytes) :=
  inferInstanceAs (Decidable (∃ byte ∈ bytes, _))

/-- What is behind these bytes is not read any more. -/
def Unread (s : ThreadState S T) (ahead : List (Issued NotifyByte)) : Prop :=
  s.exited = true ∨ Has .exit ahead

def Idle (s : ThreadState S T) (cmd : ThreadCommand)
    (ahead : List (Issued NotifyByte)) : Prop :=
  cmd = .stop ∧ (s.stopping = true ∨ Has .stop ahead)

/-- The queued tasks from before `issue` are taken before a command behind these
bytes has its effect. -/
def Covered (s : ThreadState S T) (cmd : ThreadCommand) (issue : ℕ)
    (ahead : List (Issued NotifyByte)) : Prop :=
  cmd = .stop ∨ (s.stopping = false ∧ Has .stop ahead) ∨
    (s.tq.taskList.countP fun task => task.issue < issue) ≤ taskBytes ahead

/-- A command may be written to the pipe: nothing that waits in the list is to be
processed before it. -/
def MayWrite (s : ThreadState S T) (cmd : ThreadCommand) : Prop :=
  s.Unread s.pipe ∨ s.Idle cmd s.pipe ∨
    (∀ byte ∈ s.pendingNotifyList, byte.what = .task) ∧
      s.Covered cmd s.issues s.pipe

instance (s : ThreadState S T) (cmd : ThreadCommand) : Decidable (s.MayWrite cmd) :=
  inferInstanceAs (Decidable ((_ ∨ _) ∨ (_ ∧ (_ ∨ _)) ∨ (_ ∧ (_ ∨ (_ ∧ _) ∨ _))))

def WritesInOrder (s : ThreadState S T) : ThreadAction S T → Prop
  | .notify cmd true _ => s.MayWrite cmd
  | _ => True

instance (s : ThreadState S T) (a : ThreadAction S T) :
    Decidable (s.WritesInOrder a) := by
  unfold WritesInOrder
  split <;> infer_instance

/-! ## What is in front of a command -/

/-- Everything issued before `issue` is processed, queued or among these bytes. -/
def Accounted (s : ThreadState S T) (issue : ℕ) (ahead : List (Issued NotifyByte)) :
    Prop :=
  ∀ earlier < issue, s.Processed earlier ∨
    (∃ task ∈ s.tq.taskList, task.issue = earlier) ∨
    ∃ byte ∈ ahead, byte.issue = earlier ∧ byte.what ≠ .task

def Clear (s : ThreadState S T) (cmd : ThreadCommand) (issue : ℕ)
    (ahead : List (Issued NotifyByte)) : Prop :=
  s.Unread ahead ∨ s.Idle cmd ahead ∨
    s.Accounted issue ahead ∧ s.Covered cmd issue ahead

/-- The bytes that the loop is going to read. -/
def channel (s : ThreadState S T) : List (Issued NotifyByte) :=
  s.pipe ++ s.pendingNotifyList

structure Ordered (s : ThreadState S T) : Prop where
  accounted : s.Accounted s.issues s.channel
  sorted : s.tq.taskList.Pairwise fun task later => task.issue < later.issue
  queued : ∀ task ∈ s.tq.taskList, task.issue < s.issues
  sent : ∀ byte ∈ s.channel, byte.issue < s.issues
  clear : ∀ ahead issue cmd behind,
    s.channel = ahead ++ ⟨issue, .command cmd⟩ :: behind → s.Clear cmd issue ahead

theorem split_at {α : Type*} {before after ahead behind : List α} {x y : α}
    (h : before ++ x :: after = ahead ++ y :: behind) :
    (∃ rest, before = ahead ++ y :: rest) ∨ (ahead = before ∧ y = x) ∨
      ∃ mid, ahead = before ++ x :: mid ∧ after = mid ++ y :: behind := by
  rcases List.append_eq_append_iff.mp h with ⟨mid, rfl, hmid⟩ | ⟨mid, rfl, hmid⟩
  · cases mid with
    | nil =>
        rw [List.nil_append, List.cons.injEq] at hmid
        exact .inr (.inl ⟨List.append_nil _, hmid.1.symm⟩)
    | cons z mid =>
        rw [List.cons_append, List.cons.injEq] at hmid
        exact .inr (.inr ⟨mid, by rw [hmid.1], hmid.2⟩)
  · cases mid with
    | nil =>
        rw [List.nil_append, List.cons.injEq] at hmid
        exact .inr (.inl ⟨(List.append_nil _).symm, hmid.1⟩)
    | cons z mid =>
        rw [List.cons_append, List.cons.injEq] at hmid
        exact .inl ⟨mid, by rw [hmid.1]⟩

variable {s s' : ThreadState S T} {cmd : ThreadCommand} {issue : ℕ}
  {ahead ahead' : List (Issued NotifyByte)}

theorem Has.mono (h : Has cmd ahead) (hsub : ahead ⊆ ahead') : Has cmd ahead' := by
  obtain ⟨byte, hbyte, hwhat⟩ := h
  exact ⟨byte, hsub hbyte, hwhat⟩

theorem Clear.mono (h : s.Clear cmd issue ahead) (hsub : ahead ⊆ ahead')
    (htasks : taskBytes ahead ≤ taskBytes ahead') : s.Clear cmd issue ahead' := by
  rcases h with (hexited | hexit) | ⟨hstop, hstopping | hhas⟩ | ⟨haccounted, hcovered⟩
  · exact .inl (.inl hexited)
  · exact .inl (.inr (hexit.mono hsub))
  · exact .inr (.inl ⟨hstop, .inl hstopping⟩)
  · exact .inr (.inl ⟨hstop, .inr (hhas.mono hsub)⟩)
  · refine .inr (.inr ⟨fun earlier hearlier => ?_, ?_⟩)
    · rcases haccounted earlier hearlier with hdone | hqueued | ⟨byte, hbyte, his⟩
      · exact .inl hdone
      · exact .inr (.inl hqueued)
      · exact .inr (.inr ⟨byte, hsub hbyte, his⟩)
    · rcases hcovered with hstop | ⟨hstopping, hhas⟩ | hcount
      · exact .inl hstop
      · exact .inr (.inl ⟨hstopping, hhas.mono hsub⟩)
      · exact .inr (.inr (hcount.trans htasks))

/-! ## Issuing -/

/-- `s'` has issued one byte more than `s`, and the task of it. -/
structure Issues (s : ThreadState S T) (what : NotifyByte) (s' : ThreadState S T) :
    Prop where
  issues : s'.issues = s.issues + 1
  exited : s'.exited = s.exited
  stopping : s'.stopping = s.stopping
  handed : s'.handed = s.handed
  ran : s'.ran = s.ran
  queue : match what with
    | .task => ∃ task, s'.tq.taskList = s.tq.taskList ++ [⟨s.issues, task⟩]
    | .command _ => s'.tq.taskList = s.tq.taskList

namespace Issues

variable {what : NotifyByte} (h : Issues s what s')
include h

theorem processed (issue : ℕ) : s'.Processed issue ↔ s.Processed issue := by
  unfold Processed
  rw [h.handed, h.ran]

theorem mem_queue {task : Issued T} (htask : task ∈ s.tq.taskList) :
    task ∈ s'.tq.taskList := by
  have hqueue := h.queue
  cases what with
  | task =>
      obtain ⟨new, hqueue⟩ := hqueue
      rw [hqueue]
      exact List.mem_append_left _ htask
  | command cmd => rwa [hqueue]

theorem of_mem_queue {task : Issued T} (htask : task ∈ s'.tq.taskList) :
    task ∈ s.tq.taskList ∨ what = .task ∧ task.issue = s.issues := by
  have hqueue := h.queue
  cases what with
  | task =>
      obtain ⟨new, hqueue⟩ := hqueue
      rw [hqueue, List.mem_append, List.mem_singleton] at htask
      rcases htask with hold | rfl
      · exact .inl hold
      · exact .inr ⟨rfl, rfl⟩
  | command cmd =>
      rw [hqueue] at htask
      exact .inl htask

theorem countP_queue (hissue : issue ≤ s.issues) :
    (s'.tq.taskList.countP fun task => task.issue < issue) =
      s.tq.taskList.countP fun task => task.issue < issue := by
  have hqueue := h.queue
  cases what with
  | task =>
      obtain ⟨new, hqueue⟩ := hqueue
      simp [hqueue, List.countP_append, hissue]
  | command cmd => rw [hqueue]

theorem clear (hissue : issue ≤ s.issues) (hclear : s.Clear cmd issue ahead) :
    s'.Clear cmd issue ahead := by
  unfold Clear Unread Idle Covered at hclear ⊢
  rw [h.exited, h.stopping, h.countP_queue hissue]
  refine hclear.imp_right (Or.imp_right (And.imp_left fun haccounted => ?_))
  intro earlier hearlier
  rcases haccounted earlier hearlier with hdone | ⟨task, htask, his⟩ | hahead
  · exact .inl ((h.processed earlier).mpr hdone)
  · exact .inr (.inl ⟨task, h.mem_queue htask, his⟩)
  · exact .inr (.inr hahead)

end Issues

theorem Ordered.insert (h : s.Ordered) {what : NotifyByte} (hissues : Issues s what s')
    (before after : List (Issued NotifyByte))
    (hchannel : s.channel = before ++ after)
    (hchannel' : s'.channel = before ++ ⟨s.issues, what⟩ :: after)
    (hnew : ∀ cmd, what = .command cmd → s.Clear cmd s.issues before) : s'.Ordered := by
  have hsub : s.channel ⊆ s'.channel := by
    rw [hchannel, hchannel']
    exact List.append_subset.mpr ⟨List.subset_append_left _ _,
      fun byte hbyte => List.mem_append_right _ (List.mem_cons_of_mem _ hbyte)⟩
  constructor
  · intro earlier hearlier
    rw [hissues.issues, Nat.lt_succ_iff_lt_or_eq] at hearlier
    rcases hearlier with hlt | rfl
    · rcases h.accounted earlier hlt with hdone | ⟨task, htask, his⟩ | ⟨byte, hbyte, his⟩
      · exact .inl ((hissues.processed earlier).mpr hdone)
      · exact .inr (.inl ⟨task, hissues.mem_queue htask, his⟩)
      · exact .inr (.inr ⟨byte, hsub hbyte, his⟩)
    · cases what with
      | task =>
          obtain ⟨task, hqueue⟩ := hissues.queue
          exact .inr (.inl ⟨⟨s.issues, task⟩, by simp [hqueue], rfl⟩)
      | command cmd =>
          exact .inr (.inr ⟨⟨s.issues, .command cmd⟩, by simp [hchannel'], rfl,
            NotifyByte.noConfusion⟩)
  · have hqueue := hissues.queue
    cases what with
    | task =>
        obtain ⟨task, hqueue⟩ := hqueue
        rw [hqueue, List.pairwise_append]
        refine ⟨h.sorted, List.pairwise_singleton _ _, fun earlier hearlier later => ?_⟩
        rw [List.mem_singleton]
        rintro rfl
        exact h.queued earlier hearlier
    | command cmd =>
        rw [hqueue]
        exact h.sorted
  · intro task htask
    rw [hissues.issues]
    rcases hissues.of_mem_queue htask with hold | ⟨-, hnew⟩
    · exact Nat.lt_succ_of_lt (h.queued task hold)
    · exact hnew ▸ Nat.lt_succ_self _
  · intro byte hbyte
    rw [hissues.issues]
    rw [hchannel', List.mem_append, List.mem_cons] at hbyte
    rcases hbyte with hbyte | rfl | hbyte
    · exact Nat.lt_succ_of_lt (h.sent byte (by simp [hchannel, hbyte]))
    · exact Nat.lt_succ_self _
    · exact Nat.lt_succ_of_lt (h.sent byte (by simp [hchannel, hbyte]))
  · intro ahead issue cmd behind hsplit
    rw [hchannel'] at hsplit
    rcases split_at hsplit with ⟨rest, hbefore⟩ | ⟨hahead, hcmd⟩ | ⟨mid, hahead, hafter⟩
    · have hold : s.channel = ahead ++ ⟨issue, .command cmd⟩ :: (rest ++ after) := by
        rw [hchannel, hbefore, List.append_assoc, List.cons_append]
      have hlt := h.sent ⟨issue, .command cmd⟩ (by simp [hold])
      exact hissues.clear hlt.le (h.clear _ _ _ _ hold)
    · rw [Issued.mk.injEq] at hcmd
      rw [hcmd.1, hahead]
      exact hissues.clear le_rfl (hnew cmd hcmd.2.symm)
    · have hold : s.channel = (before ++ mid) ++ ⟨issue, .command cmd⟩ :: behind := by
        rw [hchannel, hafter, List.append_assoc]
      have hlt := h.sent ⟨issue, .command cmd⟩ (by simp [hold])
      refine hissues.clear hlt.le ((h.clear _ _ _ _ hold).mono ?_ ?_)
      · rw [hahead]
        exact List.append_subset.mpr ⟨List.subset_append_left _ _,
          fun byte hbyte => List.mem_append_right _ (List.mem_cons_of_mem _ hbyte)⟩
      · rw [hahead, taskBytes_append, taskBytes_append, taskBytes_cons]
        omega

/-! ## Reading -/

/-- `s'` has taken the first byte off the pipe and done what it asks for. -/
structure Takes (s : ThreadState S T) (byte : Issued NotifyByte)
    (s' : ThreadState S T) : Prop where
  channel : s.channel = byte :: s'.channel
  issues : s'.issues = s.issues
  queue : s'.tq.taskList.Sublist s.tq.taskList
  done : ∀ issue, s.Processed issue → s'.Processed issue
  tasks : ∀ task ∈ s.tq.taskList,
    s'.Processed task.issue ∨ task ∈ s'.tq.taskList
  command : byte.what ≠ .task → s'.Processed byte.issue

theorem Takes.accounted {byte : Issued NotifyByte} (h : Takes s byte s')
    (haccounted : s.Accounted issue (byte :: ahead)) : s'.Accounted issue ahead := by
  intro earlier hearlier
  rcases haccounted earlier hearlier with hdone | ⟨task, htask, rfl⟩ | ⟨sent, hsent, his⟩
  · exact .inl (h.done earlier hdone)
  · exact (h.tasks task htask).imp_right fun hqueued => .inl ⟨task, hqueued, rfl⟩
  · rcases List.mem_cons.mp hsent with rfl | hsent
    · exact .inl (his.1 ▸ h.command his.2)
    · exact .inr (.inr ⟨sent, hsent, his⟩)

theorem Ordered.takes (h : s.Ordered) {byte : Issued NotifyByte}
    (htakes : Takes s byte s')
    (hclear : ∀ cmd issue ahead, s.Clear cmd issue (byte :: ahead) →
      s'.Clear cmd issue ahead) : s'.Ordered := by
  constructor
  · rw [htakes.issues]
    exact htakes.accounted (htakes.channel ▸ h.accounted)
  · exact h.sorted.sublist htakes.queue
  · intro task htask
    rw [htakes.issues]
    exact h.queued task (htakes.queue.subset htask)
  · intro sent hsent
    rw [htakes.issues]
    exact h.sent sent (htakes.channel ▸ List.mem_cons_of_mem _ hsent)
  · intro ahead issue cmd behind hsplit
    refine hclear cmd issue ahead (h.clear (byte :: ahead) issue cmd behind ?_)
    rw [htakes.channel, hsplit, List.cons_append]

theorem has_cons {byte : Issued NotifyByte} :
    Has cmd (byte :: ahead) ↔ byte.what = .command cmd ∨ Has cmd ahead := by
  simp [Has]

theorem countP_popFront (hsorted : s.tq.taskList.Pairwise fun task later =>
    task.issue < later.issue) (issue : ℕ) :
    (s.tq.popFront.2.taskList.countP fun task => task.issue < issue) =
      (s.tq.taskList.countP fun task => task.issue < issue) - 1 := by
  cases hlist : s.tq.taskList with
  | nil => simp [TaskQueue.popFront, hlist]
  | cons task rest =>
      rw [hlist, List.pairwise_cons] at hsorted
      simp only [TaskQueue.popFront, hlist]
      by_cases hfirst : task.issue < issue
      · simp [hfirst]
      · have hnone : rest.countP (fun task => task.issue < issue) = 0 := by
          rw [List.countP_eq_zero]
          intro later hlater
          have hlt := hsorted.1 later hlater
          simp only [decide_eq_true_eq, not_lt]
          omega
        simp [hfirst, hnone]

theorem Processed.onTask (h : s.Processed issue) : (onTask s).Processed issue := by
  rcases h with ⟨task, htask, his⟩ | hran
  · exact .inl ⟨task, List.mem_append_left _ htask, his⟩
  · exact .inr hran

theorem Ordered.onTask (h : s.Ordered) {rest : List (Issued NotifyByte)}
    (hpipe : s.pipe = ⟨issue, .task⟩ :: rest) :
    (onTask { s with pipe := rest }).Ordered := by
  have happend := s.tq.popFront_append
  have htakes : Takes s ⟨issue, .task⟩ (ThreadState.onTask { s with pipe := rest }) := by
    refine ⟨?_, rfl, ?_, ?_, ?_, fun hne => absurd rfl hne⟩
    · simp [channel, hpipe, ThreadState.onTask]
    · simp only [ThreadState.onTask]
      rw [← happend]
      exact List.sublist_append_right _ _
    · exact fun _ hdone => Processed.onTask hdone
    · intro task htask
      rw [← happend, List.mem_append] at htask
      exact htask.imp_left fun hpopped =>
        .inl ⟨task, List.mem_append_right _ hpopped, rfl⟩
  refine h.takes htakes fun cmd issue' ahead hclear => ?_
  rcases hclear with (hexited | hexit) | ⟨hstop, hstopping | hhas⟩ | ⟨haccounted, hcovered⟩
  · exact .inl (.inl hexited)
  · exact .inl (.inr (by simpa [has_cons] using hexit))
  · exact .inr (.inl ⟨hstop, .inl hstopping⟩)
  · exact .inr (.inl ⟨hstop, .inr (by simpa [has_cons] using hhas)⟩)
  · refine .inr (.inr ⟨htakes.accounted haccounted, ?_⟩)
    rcases hcovered with hstop | ⟨hstopping, hhas⟩ | hcount
    · exact .inl hstop
    · exact .inr (.inl ⟨hstopping, by simpa [has_cons] using hhas⟩)
    · refine .inr (.inr ?_)
      simp only [ThreadState.onTask, countP_popFront h.sorted]
      rw [taskBytes_cons, if_pos rfl] at hcount
      omega

/-- What a command leaves of the flags and the queue. -/
structure Runs (s : ThreadState S T) (cmd : ThreadCommand) (s' : ThreadState S T) :
    Prop where
  exited : s.exited = true → s'.exited = true
  exit : cmd = .exit → s'.exited = true
  stopping : cmd ≠ .stop → s'.stopping = s.stopping
  stop : cmd = .stop → s'.stopping = true
  drained : cmd = .stop → s.stopping = false → s'.tq.taskList = []

theorem Ordered.runs (h : s.Ordered) {what : ThreadCommand}
    (htakes : Takes s ⟨issue, .command what⟩ s') (hruns : Runs s what s') :
    s'.Ordered := by
  have hstopping : s.stopping = true → s'.stopping = true := by
    intro hstopping
    by_cases hstop : what = .stop
    · exact hruns.stop hstop
    · rw [hruns.stopping hstop, hstopping]
  refine h.takes htakes fun cmd issue' ahead hclear => ?_
  rcases hclear with (hexited | hexit) | ⟨hstop, hbefore⟩ | ⟨haccounted, hcovered⟩
  · exact .inl (.inl (hruns.exited hexited))
  · rcases has_cons.mp hexit with hfirst | hahead
    · exact .inl (.inl (hruns.exit (NotifyByte.command.inj hfirst)))
    · exact .inl (.inr hahead)
  · refine .inr (.inl ⟨hstop, ?_⟩)
    rcases hbefore with hbefore | hhas
    · exact .inl (hstopping hbefore)
    · exact (has_cons.mp hhas).imp_left fun hfirst =>
        hruns.stop (NotifyByte.command.inj hfirst)
  · refine .inr (.inr ⟨htakes.accounted haccounted, ?_⟩)
    rcases hcovered with hstop | ⟨hfirst, hhas⟩ | hcount
    · exact .inl hstop
    · by_cases hstop : what = .stop
      · exact .inr (.inr (by simp [hruns.drained hstop hfirst]))
      · refine .inr (.inl ⟨by rw [hruns.stopping hstop, hfirst], ?_⟩)
        refine (has_cons.mp hhas).resolve_left fun hwhat => ?_
        exact hstop (NotifyByte.command.inj hwhat)
    · refine .inr (.inr ((htakes.queue.countP_le).trans ?_))
      rw [taskBytes_cons, if_neg NotifyByte.noConfusion, Nat.zero_add] at hcount
      exact hcount

/-- A command that is not idle takes effect in order. -/
theorem Ordered.inOrder (h : s.Ordered)
    (horder : s'.handed ++ s'.tq.taskList = s'.pushed) {what : ThreadCommand}
    (hexited : s.exited = false) (htakes : Takes s ⟨issue, .command what⟩ s')
    (hruns : Runs s what s') :
    (what = .stop ∧ s.stopping = true) ∨
      (∀ earlier < issue, s'.Processed earlier) ∧
        ∀ task ∈ s'.pushed, task.issue < issue → task ∈ s'.handed := by
  have hclear := h.clear [] issue what s'.channel htakes.channel
  rcases hclear with (hbefore | ⟨_, hmem, -⟩) | ⟨hstop, hstopping | ⟨_, hmem, -⟩⟩ |
    ⟨haccounted, hcovered⟩
  · rw [hexited] at hbefore
    cases hbefore
  · cases hmem
  · exact .inl ⟨hstop, hstopping⟩
  · cases hmem
  · by_cases hidle : what = .stop ∧ s.stopping = true
    · exact .inl hidle
    · right
      -- no task from before the command is left
      have hnone : ∀ task ∈ s'.tq.taskList, ¬task.issue < issue := by
        rcases hcovered with hstop | ⟨-, _, hmem, -⟩ | hcount
        · have hfirst : s.stopping = false := by simpa [hstop] using hidle
          simp [hruns.drained hstop hfirst]
        · cases hmem
        · intro task htask
          have hzero := List.countP_eq_zero.mp (Nat.le_zero.mp hcount) task
            (htakes.queue.subset htask)
          simpa using hzero
      refine ⟨fun earlier hearlier => ?_, fun task htask hlt => ?_⟩
      · rcases haccounted earlier hearlier with hdone | ⟨task, htask, rfl⟩ | ⟨_, hmem, -⟩
        · exact htakes.done earlier hdone
        · exact (htakes.tasks task htask).resolve_right fun hleft =>
            hnone task hleft hearlier
        · cases hmem
      · rw [← horder, List.mem_append] at htask
        exact htask.resolve_right fun hleft => hnone task hleft hlt

/-! ## Runs -/

section Runs

variable {thread : S}

theorem Ordered.pushTask (h : s.Ordered) {task : T} {write : Bool}
    (hsends : Sends thread
      { s with
        tq := s.tq.pushBack ⟨s.issues, task⟩
        pushed := s.pushed ++ [⟨s.issues, task⟩] } .task write s') : s'.Ordered := by
  have hissues : Issues s .task s' := by
    cases hsends with
    | written => exact ⟨rfl, rfl, rfl, rfl, rfl, task, rfl⟩
    | waits => exact ⟨rfl, rfl, rfl, rfl, rfl, task, rfl⟩
  have hnew : ∀ {before} cmd, NotifyByte.task = .command cmd →
      s.Clear cmd s.issues before := fun _ heq => NotifyByte.noConfusion heq
  cases hsends with
  | written =>
      refine h.insert hissues s.pipe s.pendingNotifyList rfl ?_ hnew
      simp [channel]
  | waits =>
      refine h.insert hissues s.channel []
        (List.append_nil _).symm ?_ hnew
      simp [channel]

theorem Ordered.mayWrite (h : s.Ordered) (hguard : s.MayWrite cmd) :
    s.Clear cmd s.issues s.pipe := by
  refine hguard.imp_right (Or.imp_right fun ⟨htasks, hcovered⟩ => ⟨?_, hcovered⟩)
  intro earlier hearlier
  rcases h.accounted earlier hearlier with hdone | hqueued | ⟨byte, hbyte, his, hwhat⟩
  · exact .inl hdone
  · exact .inr (.inl hqueued)
  · refine .inr (.inr ⟨byte, ?_, his, hwhat⟩)
    rw [channel, List.mem_append] at hbyte
    exact hbyte.resolve_right fun hwaits => hwhat (htasks byte hwaits)

theorem Ordered.notify (h : s.Ordered) (hinv : s.Inv thread) {write : Bool}
    (hguard : write = true → s.MayWrite cmd)
    (hsends : Sends thread s (.command cmd) write s') : s'.Ordered := by
  have hissues : Issues s (.command cmd) s' := by
    cases hsends with
    | written => exact ⟨rfl, rfl, rfl, rfl, rfl, rfl⟩
    | waits => exact ⟨rfl, rfl, rfl, rfl, rfl, rfl⟩
  cases hsends with
  | written =>
      refine h.insert hissues s.pipe s.pendingNotifyList rfl
        (by simp [channel]) fun cmd' heq => ?_
      obtain rfl := NotifyByte.command.inj heq
      exact h.mayWrite (hguard rfl)
  | waits =>
      refine h.insert hissues s.channel []
        (List.append_nil _).symm (by simp [channel]) fun cmd' heq => ?_
      refine .inr (.inr ⟨h.accounted, .inr (.inr ?_)⟩)
      rw [channel, taskBytes_append]
      exact List.countP_le_length.trans hinv.notified

theorem Takes.of_command (hchannel : s.channel = ⟨issue, .command cmd⟩ :: s'.channel)
    (hissues : s'.issues = s.issues) (hran : s'.ran = s.ran ++ [⟨issue, cmd⟩])
    (hqueue : (s'.tq.taskList = s.tq.taskList ∧ s'.handed = s.handed) ∨
      s'.tq.taskList = [] ∧ s'.handed = s.handed ++ s.tq.taskList) :
    Takes s ⟨issue, .command cmd⟩ s' := by
  have hhanded : ∀ task ∈ s.handed, task ∈ s'.handed := by
    rcases hqueue with ⟨-, hsame⟩ | ⟨-, hmore⟩
    · simp [hsame]
    · simp +contextual [hmore]
  constructor
  · exact hchannel
  · exact hissues
  · rcases hqueue with ⟨hsame, -⟩ | ⟨hnil, -⟩
    · rw [hsame]
    · rw [hnil]
      exact List.nil_sublist _
  · rintro done (⟨task, hmem, his⟩ | ⟨earlier, hmem, his⟩)
    · exact .inl ⟨task, hhanded task hmem, his⟩
    · exact .inr ⟨earlier, by simp [hran, hmem], his⟩
  · intro task htask
    rcases hqueue with ⟨hsame, -⟩ | ⟨-, hmore⟩
    · exact .inr (hsame ▸ htask)
    · exact .inl (.inl ⟨task, by simp [hmore, htask], rfl⟩)
  · exact fun _ => .inr ⟨⟨issue, cmd⟩, by simp [hran], rfl⟩

theorem Ordered.readCommand (h : s.Ordered) {rest : List (Issued NotifyByte)}
    (hpipe : s.pipe = ⟨issue, .command cmd⟩ :: rest) (hexited : s.exited = false)
    (horder : s'.handed ++ s'.tq.taskList = s'.pushed)
    (htakes : Takes s ⟨issue, .command cmd⟩ s') (hruns : Runs s cmd s') :
    s'.Ordered ∧ InOrder s (.readCallback true) s' := by
  refine ⟨h.runs htakes hruns, ?_⟩
  simp only [InOrder, hpipe]
  exact h.inOrder horder hexited htakes hruns

theorem Ordered.steps (h : s.Ordered) (hinv : s.Inv thread) {a : ThreadAction S T}
    (hguard : s.WritesInOrder a) (hsteps : Steps thread s a s') :
    s'.Ordered ∧ InOrder s a s' := by
  have hinv' := hinv.steps hsteps
  cases hsteps with
  | pushTask hsends => exact ⟨h.pushTask hsends, trivial⟩
  | @notify cmd write env s' hsends =>
      refine ⟨h.notify hinv (fun hwrite => ?_) hsends, trivial⟩
      subst hwrite
      exact hguard
  | readFails => exact ⟨h, trivial⟩
  | onTask hpipe hexited =>
      refine ⟨h.onTask hpipe, ?_⟩
      simp only [InOrder, hpipe]
  | onStopAgain hpipe hexited hstopping =>
      refine h.readCommand hpipe hexited hinv'.order
        (.of_command (by simp [channel, hpipe]) rfl rfl (.inl ⟨rfl, rfl⟩))
        ⟨id, ThreadCommand.noConfusion, fun _ => rfl, fun _ => hstopping, ?_⟩
      rw [hstopping]
      exact fun _ hfirst => nomatch hfirst
  | onStop hpipe hexited hstopping hnil hcounted =>
      exact h.readCommand hpipe hexited hinv'.order
        (.of_command (by simp [channel, hpipe]) rfl rfl (.inr ⟨hnil, rfl⟩))
        ⟨id, ThreadCommand.noConfusion, fun hne => absurd rfl hne, fun _ => rfl,
          fun _ _ => hnil⟩
  | onReload hpipe hexited =>
      exact h.readCommand hpipe hexited hinv'.order
        (.of_command (by simp [channel, hpipe, ThreadState.onReload]) rfl rfl
          (.inl ⟨rfl, rfl⟩))
        ⟨id, ThreadCommand.noConfusion, fun _ => rfl, ThreadCommand.noConfusion,
          ThreadCommand.noConfusion⟩
  | onExit hpipe hexited =>
      exact h.readCommand hpipe hexited hinv'.order
        (.of_command (by simp [channel, hpipe, ThreadState.onExit]) rfl rfl
          (.inl ⟨rfl, rfl⟩))
        ⟨fun _ => rfl, fun _ => rfl, fun _ => rfl, ThreadCommand.noConfusion,
          ThreadCommand.noConfusion⟩
  | @retry e eventDel byte rest axis running hpending htimer hsame =>
      have hchannel : s.pipe ++ [byte] ++ rest = s.channel := by
        simp [channel, hpending]
      exact ⟨⟨fun earlier hearlier => (hchannel ▸ h.accounted earlier hearlier :),
        h.sorted, h.queued, fun byte hbyte => h.sent byte (hchannel ▸ hbyte),
        fun ahead issue cmd behind hsplit =>
          h.clear ahead issue cmd behind (hchannel.symm.trans hsplit)⟩, trivial⟩
  | timers ha htimer hsame =>
      refine ⟨⟨h.accounted, h.sorted, h.queued, h.sent, h.clear⟩, ?_⟩
      cases a with
      | readCallback read => exact absurd rfl (ha read)
      | _ => trivial

theorem Ordered.init : (init : ThreadState S T).Ordered where
  accounted := fun _ h => nomatch h
  sorted := .nil
  queued := fun _ h => nomatch h
  sent := fun _ h => nomatch h
  clear := fun _ _ _ _ h => by simp [channel, ThreadState.init] at h

/-- **Commands take effect in the order of issue**, as long as none is written straight
to the pipe past something in the list that is to be processed before it. -/
theorem run_inOrder [DecidableEq S] (thread : S) (actions : List (ThreadAction S T))
    (hguard : Guarded (step thread) WritesInOrder init actions) :
    Along (step thread) (fun _ => True) InOrder init actions :=
  Guarded.along_of_inv (fun s (_ : s.Inv thread ∧ s.Ordered) => trivial)
    (fun _ _ _ h ha hstep => by
      have hsteps := step_steps h.1 hstep
      obtain ⟨hordered, hinOrder⟩ := h.2.steps h.1 ha hsteps
      exact ⟨⟨h.1.steps hsteps, hordered⟩, hinOrder⟩)
    ⟨.init, .init⟩ hguard

end Runs

/-! ## A full pipe -/

def timerSet : SetTimerEnv := ⟨true, true, true, true⟩

def stopWaits : List (ThreadAction Unit ℕ) :=
  [.pushTask 1 false timerSet, .notify .stop false timerSet,
    .timerFires 0 true true, .timerReturns, .readCallback true]

theorem run_inOrder_stopWaits :
    Along (step ()) (fun _ => True) InOrder init stopWaits :=
  run_inOrder () stopWaits (by decide)

/-- The pipe is full for the second task only. -/
def exitOvertakes : List (ThreadAction Unit ℕ) :=
  [.pushTask 1 true timerSet, .pushTask 2 false timerSet, .readCallback true,
    .notify .exit true timerSet, .readCallback true]

/-- The exit is read while the second task is queued. -/
theorem not_inOrder_exitOvertakes :
    ¬Along (step ()) (fun _ => True) InOrder (init : ThreadState Unit ℕ)
      exitOvertakes := by
  intro h
  have hexit := ((((h.2 _ rfl).2.2 _ rfl).2.2 _ rfl).2.2 _ rfl).2.2 _ rfl
  rcases hexit.1 with ⟨hstop, -⟩ | ⟨-, htasks⟩
  · cases hstop
  · have hhanded := htasks ⟨1, 2⟩ (by decide) (by decide)
    revert hhanded
    decide

end ThreadState

end CommonComponent
