import CommonComponent.ConnCenter
import Mathlib.Tactic

/-!
# Creating a connection that fails

`CreateConn` for a `NormalConn`, with what it does outside the tables: the calls of
`evutil_closesocket` and the read events, which hold a pointer to their connection
object.  The tables are those of `ConnCenter.createConn`.
-/

namespace CommonComponent

/-- Which of the calls that make a new connection succeed. -/
structure NewConnEnv where
  made : Bool
  eventNew : Bool
  eventAdd : Bool

/-- `closed` is the fd of each call of `evutil_closesocket`, oldest first;
`readEvents` are the objects with a read event. -/
structure ConnSockets where
  connCenter : ConnCenter
  closed : List ℤ
  readEvents : Finset ℕ

namespace ConnSockets

def closeSocket (s : ConnSockets) (sockFd : ℤ) : ConnSockets :=
  { s with closed := s.closed ++ [sockFd] }

def eventFree (s : ConnSockets) (ref : ℕ) : ConnSockets :=
  { s with readEvents := s.readEvents.erase ref }

/-- `NormalConn::Initialize`, with whether it returns 0. -/
def initializeConn (s : ConnSockets) (env : NewConnEnv) (ref : ℕ) (sockFd : ℤ) :
    ConnSockets × Bool :=
  if !env.eventNew then (s.closeSocket sockFd, false)
  else
    let created := { s with readEvents := insert ref s.readEvents }
    if !env.eventAdd then ((created.closeSocket sockFd).eventFree ref, false)
    else (created, true)

/-- `NormalConn::Finalize` of an object without a write event. -/
def finalize (s : ConnSockets) (ref : ℕ) (sockFd : ℤ) : ConnSockets :=
  (s.eventFree ref).closeSocket sockFd

/-- `ConnCenter::Clear`. -/
def clear (s : ConnSockets) (ref : ℕ) (conn : BaseConn) : ConnSockets :=
  { s with connCenter := s.connCenter.clear ref conn }.finalize ref conn.sockFd

def createConn (s : ConnSockets) (ctx : ConnCenterCtx) (env : NewConnEnv)
    (now sockFd : ℤ) : ConnSockets × Option ℕ :=
  if !env.made then (s, none)
  else
    let ref := s.connCenter.nextConn
    let (connId, connIdSeq) := s.connCenter.connIdSeq.alloc
    if connId = invalidSeqNum then
      ({ s with connCenter :=
          { s.connCenter with nextConn := ref + 1, connIdSeq := connIdSeq } }, none)
    else
      let made := { s with connCenter := s.connCenter.makeConn connId sockFd connIdSeq }
      let (tried, initialized) := made.initializeConn env ref sockFd
      if !initialized || (s.connCenter.connIdHashMap connId).isSome then
        let dropped := { tried with connCenter := tried.connCenter.dropRecord connId }
        (dropped.clear ref ⟨connId, sockFd⟩, none)
      else
        ({ tried with connCenter :=
            tried.connCenter.enterConn ctx now ref ⟨connId, sockFd⟩ }, some ref)

def Refers (s : ConnSockets) (ref : ℕ) : Prop :=
  (s.connCenter.conns ref).isSome ∨ ref ∈ s.readEvents ∨
    (∃ fd client, s.connCenter.connHashMap fd = some client ∧ client.conn = some ref) ∨
    (∃ id, s.connCenter.connIdHashMap id = some ref) ∨
    ∃ id r, s.connCenter.recordMgr.recordHashMap id = some r ∧ r.v = ref

/-- `s'` is `s` again as far as the connections go, and the object that was to come
next is gone. -/
structure Unchanged (s s' : ConnSockets) : Prop where
  connHashMap : s'.connCenter.connHashMap = s.connCenter.connHashMap
  connIdHashMap : s'.connCenter.connIdHashMap = s.connCenter.connIdHashMap
  inuse : s'.connCenter.connIdSeq.inuseSeqs = s.connCenter.connIdSeq.inuseSeqs
  recordMgr : s'.connCenter.recordMgr = s.connCenter.recordMgr
  discarded : ¬s'.Refers s.connCenter.nextConn

/-- A call of `CreateConn` that fails leaves no trace but the fd closed once. -/
def FailsClean (s : ConnSockets) (sockFd : ℤ) (result : ConnSockets × Option ℕ) : Prop :=
  result.2 = none → Unchanged s result.1 ∧ result.1.closed = s.closed ++ [sockFd]

/-- The object is made and gets an id, and its read event is added. -/
def Succeeds (s : ConnSockets) (env : NewConnEnv) : Prop :=
  env.made = true ∧ s.connCenter.connIdSeq.inuseSeqs.card ≠ i32SeqRange.totalCount ∧
    env.eventNew = true ∧ env.eventAdd = true ∧
    s.connCenter.connIdHashMap s.connCenter.connIdSeq.alloc.1 = none

variable {s : ConnSockets} {ctx : ConnCenterCtx} {env : NewConnEnv} {now sockFd : ℤ}

/-- What a call of `CreateConn` comes to: there is no object or no id, an event call
fails, the id is known already, or the connection is entered. -/
inductive Creates (s : ConnSockets) (env : NewConnEnv) (sockFd : ℤ) :
    ConnSockets × Option ℕ → Prop
  | notMade (hmade : env.made = false) : Creates s env sockFd (s, none)
  | noId (hfull : s.connCenter.connIdSeq.inuseSeqs.card = i32SeqRange.totalCount) :
      Creates s env sockFd
        ({ s with connCenter :=
            { s.connCenter with nextConn := s.connCenter.nextConn + 1 } }, none)
  | noEvent {s' : ConnSockets} {id : ℤ}
      (hrange : i32SeqRange.seqMin ≤ id ∧ id ≤ i32SeqRange.seqMax)
      (hfree : id ∉ s.connCenter.connIdSeq.inuseSeqs)
      (hevent : env.eventNew = false ∨ env.eventAdd = false)
      (hcenter : s'.connCenter =
        ((s.connCenter.makeConn id sockFd (s.connCenter.connIdSeq.take id
          hrange)).dropRecord id).clear s.connCenter.nextConn ⟨id, sockFd⟩)
      (hclosed : s'.closed = s.closed ++ [sockFd] ++ [sockFd])
      (hevents : s'.readEvents = s.readEvents.erase s.connCenter.nextConn) :
      Creates s env sockFd (s', none)
  | knownId {s' : ConnSockets}
      (hknown : (s.connCenter.connIdHashMap s.connCenter.connIdSeq.alloc.1).isSome)
      (hids : s'.connCenter.connIdHashMap s.connCenter.connIdSeq.alloc.1 = none) :
      Creates s env sockFd (s', none)
  | entered {s' : ConnSockets} (hsucceeds : s.Succeeds env) :
      Creates s env sockFd (s', some s.connCenter.nextConn)

theorem createConn_creates (s : ConnSockets) (ctx : ConnCenterCtx) (env : NewConnEnv)
    (now sockFd : ℤ) : Creates s env sockFd (s.createConn ctx env now sockFd) := by
  unfold createConn
  cases hmade : env.made with
  | false => exact .notMade hmade
  | true =>
      simp only [Bool.not_true, Bool.false_eq_true, if_false]
      rcases s.connCenter.connIdSeq.alloc_cases with
        ⟨halloc, hfull⟩ | ⟨id, hrange, hfree, halloc⟩
      · rw [halloc]
        exact .noId hfull
      · have hpos := SeqNum.one_le_of_range hrange
        have hvalid : id ≠ invalidSeqNum := by
          unfold invalidSeqNum
          omega
        have hnotFull : s.connCenter.connIdSeq.inuseSeqs.card ≠
            i32SeqRange.totalCount := by
          intro hfull
          have hzero : s.connCenter.connIdSeq.alloc.1 = invalidSeqNum := by
            unfold SeqNum.alloc
            rw [dif_pos hfull]
          rw [halloc] at hzero
          exact hvalid hzero
        have hid : s.connCenter.connIdSeq.alloc.1 = id := by rw [halloc]
        rw [halloc]
        simp only [if_neg hvalid]
        cases hnew : env.eventNew with
        | false =>
            simp only [initializeConn, hnew, Bool.not_false, Bool.true_or, if_true]
            exact .noEvent hrange hfree (.inl hnew) rfl rfl rfl
        | true =>
            cases hadd : env.eventAdd with
            | false =>
                simp only [initializeConn, hnew, hadd, Bool.not_true, Bool.not_false,
                  Bool.false_eq_true, if_false, Bool.true_or, if_true]
                refine .noEvent hrange hfree (.inr hadd) rfl rfl ?_
                simp [clear, finalize, eventFree, closeSocket]
            | true =>
                simp only [initializeConn, hnew, hadd, Bool.not_true,
                  Bool.false_eq_true, if_false, Bool.false_or]
                cases hknown : s.connCenter.connIdHashMap id with
                | none =>
                    simp only [Option.isSome_none, Bool.false_eq_true, if_false]
                    exact .entered ⟨hmade, hnotFull, hnew, hadd, hid ▸ hknown⟩
                | some ref =>
                    simp only [Option.isSome_some, if_true]
                    refine .knownId (by simp [hid, hknown]) ?_
                    simp [hid, clear, finalize, eventFree, closeSocket,
                      ConnCenter.clear]

theorem createConn_connCenter (s : ConnSockets) (ctx : ConnCenterCtx) (env : NewConnEnv)
    (now sockFd : ℤ) :
    ((s.createConn ctx env now sockFd).1.connCenter,
        (s.createConn ctx env now sockFd).2) =
      s.connCenter.createConn ctx ⟨env.made, env.eventNew && env.eventAdd⟩ now
        sockFd := by
  unfold createConn ConnCenter.createConn
  cases env.made with
  | false => rfl
  | true =>
      simp only [Bool.not_true, Bool.false_eq_true, if_false]
      split
      · rfl
      · cases hnew : env.eventNew <;> cases hadd : env.eventAdd
        all_goals
          simp only [initializeConn, hnew, hadd, Bool.not_true, Bool.not_false,
            Bool.false_eq_true, if_false, if_true, Bool.true_or, Bool.false_or,
            Bool.and_true, Bool.and_false]
        · rfl
        · rfl
        · rfl
        · split
          · rfl
          · rfl

theorem createConn_unchanged (hrep : s.connCenter.Rep)
    (hevents : ∀ ref ∈ s.readEvents, (s.connCenter.conns ref).isSome)
    (hfd : s.connCenter.connHashMap sockFd = none)
    (hfails : (s.createConn ctx env now sockFd).2 = none) :
    Unchanged s (s.createConn ctx env now sockFd).1 := by
  have hnew := hrep.unused s.connCenter.nextConn le_rfl
  have hdiscarded : ∀ s' : ConnSockets, s'.connCenter.conns = s.connCenter.conns →
      s'.readEvents ⊆ s.readEvents →
      s'.connCenter.connHashMap = s.connCenter.connHashMap →
      s'.connCenter.connIdHashMap = s.connCenter.connIdHashMap →
      s'.connCenter.recordMgr = s.connCenter.recordMgr →
      ¬s'.Refers s.connCenter.nextConn := by
    intro s' hconns hsub hfds hids hrecords
    rintro (hsome | hevent | ⟨fd, client, hclient, href⟩ | ⟨id, href⟩ |
      ⟨id, r, hr, href⟩)
    · rw [hconns, hnew] at hsome
      cases hsome
    · have hsome := hevents _ (hsub hevent)
      rw [hnew] at hsome
      cases hsome
    · obtain ⟨ref, conn, href', hconn, -⟩ := hrep.of_fd fd client (hfds ▸ hclient)
      obtain rfl : ref = s.connCenter.nextConn :=
        Option.some.inj (href'.symm.trans href)
      rw [hnew] at hconn
      cases hconn
    · obtain ⟨conn, hconn, -⟩ := hrep.of_id id _ (hids ▸ href)
      rw [hnew] at hconn
      cases hconn
    · have hid := hrep.recorded id r (hrecords ▸ hr)
      obtain ⟨conn, hconn, -⟩ := hrep.of_id id _ hid
      rw [href, hnew] at hconn
      cases hconn
  have hcreates := createConn_creates s ctx env now sockFd
  generalize s.createConn ctx env now sockFd = result at hcreates hfails ⊢
  cases hcreates with
  | notMade hmade =>
      exact ⟨rfl, rfl, rfl, rfl, hdiscarded s rfl (fun _ h => h) rfl rfl rfl⟩
  | noId hfull =>
      exact ⟨rfl, rfl, rfl, rfl, hdiscarded _ rfl (fun _ h => h) rfl rfl rfl⟩
  | noEvent hrange hfree hevent hcenter hclosed hread =>
      rw [hrep.discard hrange hfree hfd] at hcenter
      refine ⟨?_, ?_, ?_, ?_, hdiscarded _ ?_ ?_ ?_ ?_ ?_⟩
      · rw [hcenter]
      · rw [hcenter]
      · rw [hcenter]
        exact Finset.erase_insert hfree
      · rw [hcenter]
      · rw [hcenter]
      · rw [hread]
        exact Finset.erase_subset _ _
      · rw [hcenter]
      · rw [hcenter]
      · rw [hcenter]
  | knownId hknown hids =>
      have hmem := (hrep.inuse _).mpr hknown
      rcases s.connCenter.connIdSeq.alloc_cases with
        ⟨halloc, -⟩ | ⟨id, hrange, hfree, halloc⟩
      · have hpos := SeqNum.one_le_of_range (s.connCenter.connIdSeq.inuse_range _ hmem)
        rw [halloc] at hpos
        cases hpos
      · rw [halloc] at hmem
        exact absurd hmem hfree
  | entered hsucceeds => cases hfails

/-- **A failed creation is clean** only where none fails: no failure closes the fd
exactly once and leaves the tables as they are. -/
theorem createConn_failsClean_iff (s : ConnSockets) (ctx : ConnCenterCtx)
    (env : NewConnEnv) (now sockFd : ℤ) :
    FailsClean s sockFd (s.createConn ctx env now sockFd) ↔ s.Succeeds env := by
  have hcreates := createConn_creates s ctx env now sockFd
  generalize s.createConn ctx env now sockFd = result at hcreates ⊢
  constructor
  · intro hclean
    cases hcreates with
    | notMade hmade => simpa using (hclean rfl).2
    | noId hfull => simpa using (hclean rfl).2
    | noEvent hrange hfree hevent hcenter hclosed hread =>
        have honce := (hclean rfl).2
        simp [hclosed] at honce
    | knownId hknown hids =>
        have hsame := (hclean rfl).1.connIdHashMap
        rw [hsame] at hids
        rw [hids] at hknown
        cases hknown
    | entered hsucceeds => exact hsucceeds
  · intro hsucceeds hfails
    obtain ⟨hmade, hnotFull, hnew, hadd, hunknown⟩ := hsucceeds
    cases hcreates with
    | notMade hnotMade => simp [hmade] at hnotMade
    | noId hfull => exact absurd hfull hnotFull
    | noEvent hrange hfree hevent hcenter hclosed hread => simp [hnew, hadd] at hevent
    | knownId hknown hids => simp [hunknown] at hknown
    | entered hsucceeds => cases hfails

/-- The first connection of a thread, on fd 5, with `event_add` failing. -/
theorem not_failsClean_eventAdd :
    ¬FailsClean ⟨.empty, [], ∅⟩ 5
      (createConn ⟨.empty, [], ∅⟩ ⟨60, 1, 100⟩ ⟨true, true, false⟩ 0 5) := by
  intro hclean
  obtain ⟨-, hclosed⟩ := hclean rfl
  cases hclosed

end ConnSockets

end CommonComponent
