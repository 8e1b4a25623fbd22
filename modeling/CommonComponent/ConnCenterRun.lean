import CommonComponent.TcpThread
import Mathlib.Data.Set.Card
import Mathlib.Tactic

/-!
# The connection tables along a run

The loops under way and the rest of a timeout batch hold pointers to connection
objects.  `Inv` says that each of these connections is live and is held once, and
that the tables of the `ConnCenter` and the count of the thread agree; a run
keeps it as long as no connection is closed that is held so.  Logic that closes
nothing from within its calls never does that.
-/

namespace CommonComponent

namespace TcpThread

open LabelledRun

def busy (s : TcpThread) : List ℕ :=
  s.loops.filterMap LogicLoop.uses ++ (s.timeoutRecords.getD []).map (·.v)

/-- The tables agree, but for the record of a connection that has just left the
list of the busy ones. -/
structure InvBut (except : ℕ → Prop) (s : TcpThread) : Prop where
  rep : s.connCenter.Rep
  count : s.onlineTcpConnCount = s.connCenter.connIdSeq.inuseSeqs.card
  busy_nodup : s.busy.Nodup
  busy_live : ∀ ref ∈ s.busy, (s.connCenter.conns ref).isSome
  closing : s.timeoutRecords.isSome →
    ∀ loop ∈ s.loops, loop.call = .onClientClosed
  recorded : ∀ id ref, s.connCenter.connIdHashMap id = some ref → ¬ except ref →
    s.connCenter.recordMgr.recordExist id = true ∨
      (s.timeoutRecords.isSome ∧ ref ∈ s.busy)
  sound : s.fault = false

def Inv (s : TcpThread) : Prop := InvBut (fun _ => False) s

theorem Inv.init : init.Inv where
  rep := .empty
  count := rfl
  busy_nodup := List.nodup_nil
  busy_live := by simp [busy, TcpThread.init]
  closing := by simp [TcpThread.init]
  recorded := fun _ _ h => nomatch h
  sound := rfl

theorem InvBut.mono {except except' : ℕ → Prop} {s : TcpThread}
    (h : InvBut except s) (himp : ∀ ref, except ref → except' ref) :
    InvBut except' s :=
  { h with
    recorded := fun id ref href hnot =>
      h.recorded id ref href fun hexcept => hnot (himp ref hexcept) }

/-- Only the times of the last activity have changed. -/
structure Refreshed (s s' : TcpThread) : Prop where
  rep : s'.connCenter.Rep
  conns : s'.connCenter.conns = s.connCenter.conns
  ids : s'.connCenter.connIdHashMap = s.connCenter.connIdHashMap
  inuse : s'.connCenter.connIdSeq.inuseSeqs = s.connCenter.connIdSeq.inuseSeqs
  records : ∀ id, s.connCenter.recordMgr.recordExist id →
    s'.connCenter.recordMgr.recordExist id
  next : s.connCenter.nextConn ≤ s'.connCenter.nextConn
  count : s'.onlineTcpConnCount = s.onlineTcpConnCount
  loops : s'.loops = s.loops
  timer : s'.timeoutRecords = s.timeoutRecords
  log : s'.log = s.log
  fault : s'.fault = s.fault

theorem Inv.refl_refreshed {s : TcpThread} (h : s.Inv) : Refreshed s s :=
  ⟨h.rep, rfl, rfl, rfl, fun _ hid => hid, le_rfl, rfl, rfl, rfl, rfl, rfl⟩

theorem Inv.refreshed {s s' : TcpThread} (h : s.Inv) (hsame : Refreshed s s') :
    s'.Inv := by
  have hbusy : s'.busy = s.busy := by rw [busy, busy, hsame.loops, hsame.timer]
  constructor
  · exact hsame.rep
  · rw [hsame.count, hsame.inuse, h.count]
  · exact hbusy ▸ h.busy_nodup
  · rw [hbusy, hsame.conns]
    exact h.busy_live
  · rw [hsame.timer, hsame.loops]
    exact h.closing
  · rw [hbusy, hsame.ids, hsame.timer]
    intro id ref href hnot
    exact (h.recorded id ref href hnot).imp_left (hsame.records id)
  · rw [hsame.fault, h.sound]

/-- A live connection that nothing is to use any more is destroyed. -/
theorem InvBut.closeConn {s : TcpThread} {ref : ℕ} {conn : BaseConn}
    (h : InvBut (· = ref) s) (hconn : s.connCenter.conns ref = some conn)
    (hbusy : ref ∉ s.busy) :
    s.closeConn ref =
        { s with
          connCenter :=
            (s.connCenter.dropRecord conn.connId).clear ref conn
          onlineTcpConnCount := s.onlineTcpConnCount - 1
          log := s.log ++ [.destroyed ref, .decremented ref] } ∧
      (s.closeConn ref).Inv := by
  have hclose : s.closeConn ref =
      { s with
        connCenter :=
          (s.connCenter.dropRecord conn.connId).clear ref conn
        onlineTcpConnCount := s.onlineTcpConnCount - 1
        log := s.log ++ [.destroyed ref, .decremented ref] } := by
    simp [TcpThread.closeConn, hconn, h.rep.destroyConn hconn]
  refine ⟨hclose, ?_⟩
  rw [hclose]
  obtain ⟨hid, -⟩ := h.rep.filed ref conn hconn
  have hmem : conn.connId ∈ s.connCenter.connIdSeq.inuseSeqs :=
    (h.rep.inuse conn.connId).mpr (by simp [hid])
  refine ⟨h.rep.leave hconn, ?_, h.busy_nodup, ?_, h.closing, ?_, h.sound⟩
  · have hcard : ((s.connCenter.dropRecord conn.connId).clear ref
        conn).connIdSeq.inuseSeqs.card + 1 =
          s.connCenter.connIdSeq.inuseSeqs.card := by
      rw [ConnCenter.dropRecord_eq]
      exact Finset.card_erase_add_one hmem
    have hcount := h.count
    simp only
    omega
  · intro ref' href'
    have hne : ref' ≠ ref := by
      rintro rfl
      exact hbusy href'
    rw [ConnCenter.dropRecord_eq]
    simpa [ConnCenter.clear, hne] using h.busy_live ref' href'
  · intro id ref' href' _
    rw [ConnCenter.dropRecord_eq] at href' ⊢
    by_cases heq : id = conn.connId
    · simp [ConnCenter.clear, heq] at href'
    · have hold : s.connCenter.connIdHashMap id = some ref' := by
        simpa [ConnCenter.clear, heq] using href'
      have hne : ref' ≠ ref := by
        intro href
        obtain ⟨conn', hconn', hconnId'⟩ := h.rep.of_id id ref' hold
        rw [href, hconn, Option.some.injEq] at hconn'
        exact heq (by rw [← hconnId', hconn'])
      rcases h.recorded id ref' hold hne with hrecord | hwaits
      · left
        simp only [ConnCenter.clear]
        rw [RecordTimeoutMgr.recordExist_removeRecord, hrecord]
        simp [heq]
      · exact .inr hwaits

theorem busy_cons {s : TcpThread} {loop : LogicLoop} {outer : List LogicLoop}
    (hloops : s.loops = loop :: outer) :
    s.busy = loop.uses.toList ++ busy { s with loops := outer } := by
  unfold busy
  rw [hloops, List.filterMap_cons]
  cases loop.uses <;> rfl

/-- A loop begins or goes on for a live connection that nothing else is to use;
no other loop than one over `OnClientClosed` does while `OnTimer` runs. -/
theorem InvBut.enterLoop {s : TcpThread} (loop : LogicLoop)
    (h : InvBut (· = loop.conn) s)
    (hlive : (s.connCenter.conns loop.conn).isSome)
    (hfree : loop.conn ∉ s.busy)
    (hclosing : s.timeoutRecords.isSome → loop.call = .onClientClosed)
    (hrecord : ∀ id, s.connCenter.connIdHashMap id = some loop.conn →
      s.connCenter.recordMgr.recordExist id = true ∨ s.timeoutRecords.isSome) :
    Inv { s with loops := loop :: s.loops } := by
  have hbusy : busy { s with loops := loop :: s.loops } =
      loop.uses.toList ++ s.busy := busy_cons rfl
  have huses : ∀ ref, loop.uses = some ref → ref = loop.conn := by
    intro ref href
    unfold LogicLoop.uses at href
    split_ifs at href
    exact (Option.some.inj href).symm
  constructor
  · exact h.rep
  · exact h.count
  · rw [hbusy]
    cases hloop : loop.uses with
    | none => exact h.busy_nodup
    | some ref =>
        rw [huses ref hloop]
        exact List.nodup_cons.mpr ⟨hfree, h.busy_nodup⟩
  · rw [hbusy]
    intro ref href
    rcases List.mem_append.mp href with hmem | hmem
    · rw [huses ref (Option.mem_toList.mp hmem)]
      exact hlive
    · exact h.busy_live ref hmem
  · exact fun htimer => List.forall_mem_cons.mpr
      ⟨hclosing htimer, h.closing htimer⟩
  · rw [hbusy]
    intro id ref href _
    by_cases heq : ref = loop.conn
    · subst heq
      refine (hrecord id href).imp_right fun htimer => ⟨htimer, ?_⟩
      simp [LogicLoop.uses, hclosing htimer]
    · exact (h.recorded id ref href heq).imp_right fun hwaits =>
        ⟨hwaits.1, List.mem_append_right _ hwaits.2⟩
  · exact h.sound

section TellNext

variable {ctx : TcpThreadCtx} {s : TcpThread} {call : LogicCall} {ref left : ℕ}
  {outer : List LogicLoop}

theorem tellNext_told (ctx : TcpThreadCtx) {conn : BaseConn}
    (hloops : s.loops = ⟨call, ref, left + 1⟩ :: outer)
    (hconn : s.connCenter.conns ref = some conn) :
    s.tellNext ctx =
      { s with
        loops := ⟨call, ref, left⟩ :: outer
        log := s.log ++ [.told call ref (ctx.toTell call - (left + 1))] } := by
  simp [tellNext, hloops, hconn]

theorem tellNext_ended (hloops : s.loops = ⟨call, ref, 0⟩ :: outer)
    (hcall : call ≠ .onClientClosed) :
    s.tellNext ctx = { s with loops := outer } := by
  cases call with
  | onClientClosed => exact absurd rfl hcall
  | _ => simp [tellNext, hloops]

theorem tellNext_closed (hloops : s.loops = ⟨.onClientClosed, ref, 0⟩ :: outer) :
    s.tellNext ctx = closeConn { s with loops := outer } ref := by
  simp [tellNext, hloops]

end TellNext

namespace Inv

variable {ctx : TcpThreadCtx} {s : TcpThread}

/-- The connection that the innermost loop is to use is live, and nothing else is
to use it. -/
theorem loop_uses (h : s.Inv) {loop : LogicLoop} {outer : List LogicLoop}
    {ref : ℕ} (hloops : s.loops = loop :: outer) (huses : loop.uses = some ref) :
    ref ∉ busy { s with loops := outer } ∧
      ∃ conn, s.connCenter.conns ref = some conn := by
  have hcons : s.busy = ref :: busy { s with loops := outer } := by
    rw [busy_cons hloops, huses]
    rfl
  have hnodup := h.busy_nodup
  rw [hcons, List.nodup_cons] at hnodup
  refine ⟨hnodup.1, Option.isSome_iff_exists.mp (h.busy_live ref ?_)⟩
  rw [hcons]
  exact List.mem_cons_self

theorem leaveLoop (h : s.Inv) {loop : LogicLoop} {outer : List LogicLoop}
    (hloops : s.loops = loop :: outer) :
    InvBut (fun ref => loop.uses = some ref) { s with loops := outer } := by
  have hbusy := busy_cons hloops
  have hnodup := h.busy_nodup
  rw [hbusy, List.nodup_append] at hnodup
  constructor
  · exact h.rep
  · exact h.count
  · exact hnodup.2.1
  · intro ref href
    exact h.busy_live ref (by
      rw [hbusy]
      exact List.mem_append_right _ href)
  · intro htimer loop' hloop'
    exact h.closing htimer loop' (by
      rw [hloops]
      exact List.mem_cons_of_mem loop hloop')
  · intro id ref href hnot
    rcases h.recorded id ref href not_false with hrecord | ⟨htimer, hwaits⟩
    · exact .inl hrecord
    · rw [hbusy, List.mem_append] at hwaits
      exact .inr ⟨htimer, hwaits.resolve_left fun huses =>
        hnot (Option.mem_toList.mp huses)⟩
  · exact h.sound

theorem told (ctx : TcpThreadCtx) (h : s.Inv) {call : LogicCall} {ref left : ℕ}
    {outer : List LogicLoop} (hloops : s.loops = ⟨call, ref, left + 1⟩ :: outer) :
    s.tellNext ctx =
        { s with
          loops := ⟨call, ref, left⟩ :: outer
          log := s.log ++ [.told call ref (ctx.toTell call - (left + 1))] } ∧
      (s.tellNext ctx).Inv := by
  have huses : LogicLoop.uses ⟨call, ref, left + 1⟩ = some ref := by
    simp [LogicLoop.uses]
  obtain ⟨hfree, conn, hconn⟩ := h.loop_uses hloops huses
  have hnext := tellNext_told ctx hloops hconn
  refine ⟨hnext, ?_⟩
  rw [hnext]
  have hbut : InvBut (· = ref) { s with loops := outer } :=
    (h.leaveLoop hloops).mono fun ref' huses' => by
      rw [huses, Option.some.injEq] at huses'
      exact huses'.symm
  have henter := hbut.enterLoop ⟨call, ref, left⟩ (by simp [hconn]) hfree
    (fun htimer => h.closing htimer ⟨call, ref, left + 1⟩
      (hloops ▸ List.mem_cons_self))
    (fun id hid => (h.recorded id ref hid not_false).imp_right And.left)
  exact { henter with }

theorem ended (h : s.Inv) {call : LogicCall} {ref : ℕ} {outer : List LogicLoop}
    (hloops : s.loops = ⟨call, ref, 0⟩ :: outer) (hcall : call ≠ .onClientClosed) :
    (s.tellNext ctx).Inv := by
  rw [tellNext_ended hloops hcall]
  exact (h.leaveLoop hloops).mono fun ref' huses => by
    simp [LogicLoop.uses, hcall] at huses

/-- The last module returns from `OnClientClosed`: the connection goes. -/
theorem closed (ctx : TcpThreadCtx) (h : s.Inv) {ref : ℕ} {outer : List LogicLoop}
    (hloops : s.loops = ⟨.onClientClosed, ref, 0⟩ :: outer) :
    ∃ conn, s.connCenter.conns ref = some conn ∧
      s.tellNext ctx =
        { s with
          connCenter := (s.connCenter.dropRecord conn.connId).clear ref conn
          onlineTcpConnCount := s.onlineTcpConnCount - 1
          loops := outer
          log := s.log ++ [.destroyed ref, .decremented ref] } ∧
      (s.tellNext ctx).Inv := by
  have huses : LogicLoop.uses ⟨.onClientClosed, ref, 0⟩ = some ref := rfl
  obtain ⟨hfree, conn, hconn⟩ := h.loop_uses hloops huses
  have hbut : InvBut (· = ref) { s with loops := outer } :=
    (h.leaveLoop hloops).mono fun ref' huses' => by
      rw [huses, Option.some.injEq] at huses'
      exact huses'.symm
  obtain ⟨hclose, hinv⟩ := hbut.closeConn hconn hfree
  rw [tellNext_closed hloops]
  exact ⟨conn, hconn, hclose, hinv⟩

theorem tellNext (h : s.Inv) : (s.tellNext ctx).Inv := by
  cases hloops : s.loops with
  | nil =>
      have hsame : s.tellNext ctx = s := by simp [TcpThread.tellNext, hloops]
      exact hsame.symm ▸ h
  | cons loop outer =>
      obtain ⟨call, ref, left⟩ := loop
      cases left with
      | succ left => exact (h.told ctx hloops).2
      | zero =>
          by_cases hcall : call = .onClientClosed
          · subst hcall
            obtain ⟨conn, -, -, hinv⟩ := h.closed ctx hloops
            exact hinv
          · exact h.ended hloops hcall

theorem pushLoop (h : s.Inv) {call : LogicCall} {ref : ℕ}
    (hlive : (s.connCenter.conns ref).isSome) (hfree : ref ∉ s.busy)
    (hclosing : s.timeoutRecords.isSome → call = .onClientClosed) :
    (s.pushLoop ctx call ref).Inv :=
  InvBut.enterLoop _ (h.mono fun _ => False.elim) hlive hfree hclosing
    fun id hid => (h.recorded id ref hid not_false).imp_right And.left

theorem busy_of_idle (hidle : s.idle = true) :
    s.loops = [] ∧ s.timeoutRecords = none ∧ s.busy = [] := by
  simp only [idle, Bool.and_eq_true, List.isEmpty_iff, Option.isNone_iff_eq_none]
    at hidle
  obtain ⟨hloops, htimer⟩ := hidle
  exact ⟨hloops, htimer, by simp [busy, hloops, htimer]⟩

theorem tellLogics_of_idle (h : s.Inv) (hidle : s.idle = true) (call : LogicCall)
    {ref : ℕ} (hlive : (s.connCenter.conns ref).isSome) :
    (s.tellLogics ctx call ref).Inv := by
  obtain ⟨-, htimer, hbusy⟩ := busy_of_idle hidle
  refine (h.pushLoop hlive ?_ ?_).tellNext
  · simp [hbusy]
  · simp [htimer]

theorem createConn_cases (ctx : TcpThreadCtx) (h : s.Inv)
    (hidle : s.idle = true) (env : CreateConnEnv) (now : ℤ) {sockFd : ℤ}
    (hfd : s.connCenter.connHashMap sockFd = none) :
    Refreshed s (s.createConn ctx env now sockFd) ∨
      ∃ cc' conn, s.createConn ctx env now sockFd =
          TcpThread.tellLogics ctx
            { s with
              connCenter := cc'
              onlineTcpConnCount := s.onlineTcpConnCount + 1
              log := s.log ++ [.created s.connCenter.nextConn] }
            .onClientConnected s.connCenter.nextConn ∧
        cc'.conns = Function.update s.connCenter.conns s.connCenter.nextConn
          (some conn) ∧
        cc'.nextConn = s.connCenter.nextConn + 1 ∧
        Inv { s with
          connCenter := cc'
          onlineTcpConnCount := s.onlineTcpConnCount + 1
          log := s.log ++ [.created s.connCenter.nextConn] } := by
  obtain ⟨hloops, htimer, hbusy⟩ := busy_of_idle hidle
  unfold TcpThread.createConn
  rcases hcreate : s.connCenter.createConn ctx.connCenterCtx env now sockFd with
    ⟨cc', made⟩
  have hcreates := h.rep.createConn ctx.connCenterCtx env now hfd
  rw [hcreate] at hcreates
  cases hcreates with
  | failed hrep hconns hids hinuse hrecords hnext =>
      exact .inl ⟨hrep, hconns, hids, hinuse, fun id hid => hrecords ▸ hid,
        hnext, rfl, rfl, rfl, rfl, rfl⟩
  | @created _ id hrep hfree hconns hids hinuse hrecords hnext =>
      refine .inr ⟨cc', ⟨id, sockFd⟩, rfl, hconns, hnext, hrep, ?_, ?_, ?_, ?_, ?_,
        h.sound⟩
      · have hcount := h.count
        simp only [hinuse, Finset.card_insert_of_notMem hfree]
        push_cast
        omega
      · simp [busy, hloops, htimer]
      · simp [busy, hloops, htimer]
      · simp [htimer]
      · intro id' ref href _
        left
        simp only [hrecords, Bool.or_eq_true, decide_eq_true_eq]
        by_cases heq : id' = id
        · exact .inl heq
        · have hold : s.connCenter.connIdHashMap id' = some ref := by
            simpa [hids, heq] using href
          rcases h.recorded id' ref hold not_false with hrecord | ⟨hsome, -⟩
          · exact .inr hrecord
          · simp [htimer] at hsome

theorem createConn (h : s.Inv) (hidle : s.idle = true) (env : CreateConnEnv)
    (now : ℤ) {sockFd : ℤ} (hfd : s.connCenter.connHashMap sockFd = none) :
    (s.createConn ctx env now sockFd).Inv := by
  rcases h.createConn_cases ctx hidle env now hfd with
    hsame | ⟨cc', conn, heq, hconns, -, hinv⟩
  · exact h.refreshed hsame
  · rw [heq]
    exact hinv.tellLogics_of_idle hidle _ (by simp [hconns])

theorem onClientConnected (h : s.Inv) (hidle : s.idle = true)
    (env : CreateConnEnv) (now sockFd : ℤ) :
    (s.onClientConnected ctx env now sockFd).Inv := by
  obtain ⟨hloops, htimer, hbusy⟩ := busy_of_idle hidle
  unfold TcpThread.onClientConnected
  cases hget : s.connCenter.getConnBySockFd sockFd with
  | none => exact h.createConn hidle env now (h.rep.connHashMap_of_getConn hget)
  | some ref =>
      obtain ⟨conn, hconn, hfd⟩ := h.rep.of_getConnBySockFd hget
      have hbut : InvBut (· = ref) s := h.mono fun _ => False.elim
      obtain ⟨hclose, hinv⟩ := hbut.closeConn hconn (by simp [hbusy])
      have hsound : (s.closeConn ref).fault = false := hinv.sound
      simp only [hsound, Bool.false_eq_true, if_false]
      refine hinv.createConn ?_ env now ?_
      · rw [hclose]
        exact hidle
      · rw [hclose, ConnCenter.dropRecord_eq]
        simp [ConnCenter.clear, hfd]

theorem onClientClosed (h : s.Inv) {ref : ℕ}
    (hlive : (s.connCenter.conns ref).isSome) (hfree : ref ∉ s.busy) :
    (s.onClientClosed ctx ref).Inv :=
  (h.pushLoop hlive hfree fun _ => rfl).tellNext

/-- The batch of `OnTimer` is made of live connections, and holds those that have
lost their record. -/
theorem takeExpired (h : s.Inv) (hidle : s.idle = true) {now : ℤ}
    {expired : List (TimeoutRecord ℤ ℕ)} {rest : RecordTimeoutMgr ℤ ℕ}
    (htake : s.connCenter.recordMgr.takeExpired now = some (expired, rest))
    (order : BatchOrder ℤ ℕ) :
    Inv { s with
      connCenter := { s.connCenter with recordMgr := rest }
      timeoutRecords := some (order.arrange expired) } := by
  obtain ⟨hloops, htimer, -⟩ := busy_of_idle hidle
  obtain ⟨expired', rest', htake', htakes⟩ := h.rep.index.takeExpired now
  rw [htake, Option.some.injEq, Prod.mk.injEq] at htake'
  obtain ⟨rfl, rfl⟩ := htake'
  have hperm := order.perm expired
  have hbusy : busy { s with
      connCenter := { s.connCenter with recordMgr := rest }
      timeoutRecords := some (order.arrange expired) } =
        (order.arrange expired).map (·.v) := by
    simp [busy, hloops]
  have hfiled : ∀ t ∈ expired, s.connCenter.connIdHashMap t.key = some t.v := by
    intro t ht
    obtain ⟨r, hr, -, hv, -⟩ := (htakes.mem_expired t).mp ht
    exact hv ▸ h.rep.recorded t.key r hr
  constructor
  · exact { h.rep with
      index := htakes.index
      recorded := by
        intro id r hr
        have hr' := htakes.records id ▸ hr
        exact h.rep.recorded id r (Option.filter_eq_some_iff.mp hr').1 }
  · exact h.count
  · rw [hbusy, (hperm.map _).nodup_iff]
    have hinj : ∀ t ∈ expired, ∀ t' ∈ expired, t.v = t'.v → t.key = t'.key := by
      intro t ht t' ht' hv
      obtain ⟨conn, hconn, hid⟩ := h.rep.of_id _ _ (hfiled t ht)
      obtain ⟨conn', hconn', hid'⟩ := h.rep.of_id _ _ (hfiled t' ht')
      rw [hv, hconn', Option.some.injEq] at hconn
      rw [← hid, ← hid', hconn]
    have hkeys := List.pairwise_map.mp htakes.nodup
    exact List.pairwise_map.mpr (hkeys.imp_of_mem fun ht ht' hne hv =>
      hne (hinj _ ht _ ht' hv))
  · rw [hbusy]
    intro ref href
    obtain ⟨t, ht, rfl⟩ := List.mem_map.mp href
    obtain ⟨conn, hconn, -⟩ :=
      h.rep.of_id _ _ (hfiled t (hperm.mem_iff.mp ht))
    simp [hconn]
  · simp [hloops]
  · rw [hbusy]
    intro id ref href _
    rcases h.recorded id ref href not_false with hrecord | ⟨hsome, -⟩
    · rw [RecordTimeoutMgr.recordExist_takeExpired htake id, hrecord,
        Bool.and_true, Bool.not_eq_true', decide_eq_false_iff_not]
      by_cases hdue : id ∈ expired.map (·.key)
      · obtain ⟨t, ht, rfl⟩ := List.mem_map.mp hdue
        rw [hfiled t ht, Option.some.injEq] at href
        exact .inr ⟨rfl, List.mem_map.mpr ⟨t, hperm.mem_iff.mpr ht, href⟩⟩
      · exact .inl hdue
    · simp [htimer] at hsome
  · exact h.sound

theorem nextTimeout (ctx : TcpThreadCtx) (h : s.Inv) (hloops : s.loops = [])
    {t : TimeoutRecord ℤ ℕ} {rest : List (TimeoutRecord ℤ ℕ)}
    (htimer : s.timeoutRecords = some (t :: rest)) :
    (s.connCenter.conns t.v).isSome ∧
      (TcpThread.pushLoop ctx { s with timeoutRecords := some rest }
        .onClientClosed t.v).Inv := by
  have hbusy : s.busy = t.v :: rest.map (·.v) := by simp [busy, hloops, htimer]
  refine ⟨h.busy_live t.v (hbusy ▸ List.mem_cons_self), ?_⟩
  have hbusy' : (TcpThread.pushLoop ctx { s with timeoutRecords := some rest }
      .onClientClosed t.v).busy = s.busy := by
    simp [TcpThread.pushLoop, busy, hloops, htimer, LogicLoop.uses]
  constructor
  · exact h.rep
  · exact h.count
  · exact hbusy' ▸ h.busy_nodup
  · rw [hbusy']
    exact h.busy_live
  · simp [TcpThread.pushLoop, hloops]
  · rw [hbusy']
    intro id ref href hnot
    exact (h.recorded id ref href hnot).imp_right fun hwaits => ⟨rfl, hwaits.2⟩
  · exact h.sound

theorem lastTimeout (h : s.Inv) (hloops : s.loops = [])
    (htimer : s.timeoutRecords = some []) :
    Inv { s with timeoutRecords := none } := by
  have hbusy : s.busy = [] := by simp [busy, hloops, htimer]
  constructor
  · exact h.rep
  · exact h.count
  · simp [busy, hloops]
  · simp [busy, hloops]
  · simp
  · intro id ref href hnot
    rcases h.recorded id ref href hnot with hrecord | ⟨-, hwaits⟩
    · exact .inl hrecord
    · simp [hbusy] at hwaits
  · exact h.sound

end Inv

/-- What the steps come to, each with what holds before it. -/
inductive Steps (ctx : TcpThreadCtx) (s : TcpThread) :
    TcpAction → TcpThread → Prop
  | refreshed {a s'} (hsame : Refreshed s s') : Steps ctx s a s'
  | tells {a s₁ ref} (call) (hsame : Refreshed s s₁) (hidle : s.idle = true)
      (hlive : (s.connCenter.conns ref).isSome) :
      Steps ctx s a (s₁.tellLogics ctx call ref)
  | accepts {stopping connCountLimit env now sockFd} (hidle : s.idle = true)
      (hon : stopping = false)
      (hroom : ¬ (0 < connCountLimit ∧ connCountLimit ≤ s.onlineTcpConnCount)) :
      Steps ctx s (.onAccept stopping connCountLimit env now sockFd)
        (s.onClientConnected ctx env now sockFd)
  | closes {connId ref} (hget : s.connCenter.getConnById connId = some ref)
      (hlive : (s.connCenter.conns ref).isSome) :
      Steps ctx s (.closeClient connId) (s.onClientClosed ctx ref)
  | takesExpired {now order expired rest} (hidle : s.idle = true)
      (htake : s.connCenter.recordMgr.takeExpired now = some (expired, rest)) :
      Steps ctx s (.onTimer now order)
        { s with
          connCenter := { s.connCenter with recordMgr := rest }
          timeoutRecords := some (order.arrange expired) }
  | nextTimeout {t rest} (hloops : s.loops = [])
      (htimer : s.timeoutRecords = some (t :: rest)) :
      Steps ctx s .nextTimeout
        (onClientClosed ctx { s with timeoutRecords := some rest } t.v)
  | lastTimeout (hloops : s.loops = []) (htimer : s.timeoutRecords = some []) :
      Steps ctx s .nextTimeout { s with timeoutRecords := none }
  | returns (hloops : s.loops ≠ []) : Steps ctx s .logicReturns (s.tellNext ctx)

namespace Inv

variable {ctx : TcpThreadCtx} {s : TcpThread}

theorem readCallback (h : s.Inv) (hidle : s.idle = true) (stopping : Bool)
    (now sockFd : ℤ) (hasData : Bool) :
    Steps ctx s (.readCallback stopping now sockFd hasData)
      (s.readCallback ctx stopping now sockFd hasData) := by
  unfold TcpThread.readCallback
  cases stopping with
  | true => exact .refreshed h.refl_refreshed
  | false =>
      cases hget : s.connCenter.getConnBySockFd sockFd with
      | none => exact .refreshed h.refl_refreshed
      | some ref =>
          obtain ⟨conn, hconn, -⟩ := h.rep.of_getConnBySockFd hget
          obtain ⟨cc', calm, hupdate, hrep, hconns, hids, hseq, hnext, hrecords⟩ :=
            h.rep.updateConnStatus ctx.connCenterCtx now conn.connId true
          have hsame : Refreshed s { s with connCenter := cc' } :=
            ⟨hrep, hconns, hids, by rw [hseq], hrecords, hnext.ge, rfl, rfl, rfl,
              rfl, rfl⟩
          have hlive : (s.connCenter.conns ref).isSome := by simp [hconn]
          simp only [Bool.false_eq_true, if_false, hconn, hupdate]
          cases calm with
          | false => exact .tells _ hsame hidle hlive
          | true =>
              cases hasData with
              | true => exact .tells _ hsame hidle hlive
              | false => exact .refreshed hsame

theorem sendToClient (h : s.Inv) (now connId : ℤ) (added : Bool) :
    Refreshed s (s.sendToClient ctx now connId added) := by
  unfold TcpThread.sendToClient
  cases hget : s.connCenter.getConnById connId with
  | none => exact h.refl_refreshed
  | some ref =>
      cases added with
      | false => exact h.refl_refreshed
      | true =>
          obtain ⟨conn, hconn, -⟩ := h.rep.of_id connId ref hget
          obtain ⟨cc', calm, hupdate, hrep, hconns, hids, hseq, hnext, hrecords⟩ :=
            h.rep.updateConnStatus ctx.connCenterCtx now conn.connId false
          simp only [Bool.not_true, Bool.false_eq_true, if_false, hconn, hupdate,
            (h.rep.filed ref conn hconn).2]
          exact ⟨hrep, hconns, hids, by rw [hseq], hrecords, hnext.ge, rfl, rfl,
            rfl, rfl, rfl⟩

/-- **Every step is one of these.** -/
theorem steps (h : s.Inv) {s' : TcpThread} {a : TcpAction}
    (hstep : step ctx s a = some s') : Steps ctx s a s' := by
  unfold step at hstep
  rw [if_neg (by simp [h.sound])] at hstep
  cases a with
  | onAccept stopping connCountLimit env now sockFd =>
      obtain ⟨hidle, hstep⟩ := Option.ite_none_right_eq_some.mp hstep
      cases hstep
      unfold onAccept
      split_ifs with hstop hroom
      · exact .refreshed h.refl_refreshed
      · exact .refreshed h.refl_refreshed
      · exact .accepts hidle (Bool.eq_false_of_not_eq_true hstop) hroom
  | readCallback stopping now sockFd hasData =>
      obtain ⟨hidle, hstep⟩ := Option.ite_none_right_eq_some.mp hstep
      cases hstep
      exact h.readCallback hidle stopping now sockFd hasData
  | readMore sockFd =>
      obtain ⟨hidle, hstep⟩ := Option.ite_none_right_eq_some.mp hstep
      cases hstep
      cases hget : s.connCenter.getConnBySockFd sockFd with
      | none => exact .refreshed h.refl_refreshed
      | some ref =>
          obtain ⟨conn, hconn, -⟩ := h.rep.of_getConnBySockFd hget
          exact .tells _ h.refl_refreshed hidle (by simp [hconn])
  | connClosed sockFd =>
      obtain ⟨hidle, hstep⟩ := Option.ite_none_right_eq_some.mp hstep
      cases hstep
      cases hget : s.connCenter.getConnBySockFd sockFd with
      | none => exact .refreshed h.refl_refreshed
      | some ref =>
          obtain ⟨conn, hconn, -⟩ := h.rep.of_getConnBySockFd hget
          exact .tells _ h.refl_refreshed hidle (by simp [hconn])
  | sendToClient now connId added =>
      obtain ⟨-, hstep⟩ := Option.ite_none_right_eq_some.mp hstep
      cases hstep
      exact .refreshed (h.sendToClient now connId added)
  | closeClient connId =>
      obtain ⟨-, hstep⟩ := Option.ite_none_right_eq_some.mp hstep
      cases hstep
      unfold closeClient
      cases hget : s.connCenter.getConnById connId with
      | none => exact .refreshed h.refl_refreshed
      | some ref =>
          obtain ⟨conn, hconn, -⟩ := h.rep.of_id connId ref hget
          exact .closes hget (by simp [hconn])
  | onTimer now order =>
      obtain ⟨hidle, hstep⟩ := Option.ite_none_right_eq_some.mp hstep
      obtain ⟨⟨expired, rest⟩, htake, hstep⟩ := Option.map_eq_some_iff.mp hstep
      cases hstep
      exact .takesExpired hidle htake
  | nextTimeout =>
      dsimp only at hstep
      split at hstep
      · rename_i t rest hloops htimer
        cases hstep
        exact .nextTimeout hloops htimer
      · rename_i hloops htimer
        cases hstep
        exact .lastTimeout hloops htimer
      · cases hstep
  | logicReturns =>
      cases hloops : s.loops with
      | nil => simp [hloops] at hstep
      | cons loop outer =>
          simp only [hloops, Option.some.injEq] at hstep
          subst hstep
          exact .returns (by simp [hloops])

end Inv

def ClosesFree (s : TcpThread) : TcpAction → Prop
  | .closeClient connId =>
      ∀ ref, s.connCenter.getConnById connId = some ref → ref ∉ s.busy
  | _ => True

theorem Inv.keep {ctx : TcpThreadCtx} {s s' : TcpThread} {a : TcpAction}
    (h : s.Inv) (hguard : s.ClosesFree a) (hstep : step ctx s a = some s') :
    s'.Inv := by
  cases h.steps hstep with
  | refreshed hsame => exact h.refreshed hsame
  | tells call hsame hidle hlive =>
      refine (h.refreshed hsame).tellLogics_of_idle ?_ call (hsame.conns ▸ hlive)
      rw [idle, hsame.loops, hsame.timer]
      exact hidle
  | accepts hidle hon hroom => exact h.onClientConnected hidle _ _ _
  | closes hget hlive => exact h.onClientClosed hlive (hguard _ hget)
  | takesExpired hidle htake => exact h.takeExpired hidle htake _
  | nextTimeout hloops htimer => exact (h.nextTimeout _ hloops htimer).2.tellNext
  | lastTimeout hloops htimer => exact h.lastTimeout hloops htimer
  | returns hloops => exact h.tellNext

/-- The two maps hold the same connections, inverse to each other on fd and id;
the allocator, the timeout manager and the count of the thread agree with them. -/
structure TablesAgree (s : TcpThread) : Prop where
  of_fd : ∀ fd client, s.connCenter.connHashMap fd = some client →
    ∃ ref conn, client.conn = some ref ∧ s.connCenter.conns ref = some conn ∧
      conn.sockFd = fd ∧ s.connCenter.getConnById conn.connId = some ref
  of_id : ∀ id ref, s.connCenter.connIdHashMap id = some ref →
    ∃ conn, s.connCenter.conns ref = some conn ∧ conn.connId = id ∧
      s.connCenter.getConnBySockFd conn.sockFd = some ref
  inuse : ∀ id, id ∈ s.connCenter.connIdSeq.inuseSeqs ↔
    (s.connCenter.connIdHashMap id).isSome
  records : s.timeoutRecords = none → ∀ id,
    s.connCenter.recordMgr.recordExist id = (s.connCenter.connIdHashMap id).isSome
  count : s.onlineTcpConnCount =
    {id | (s.connCenter.connIdHashMap id).isSome}.ncard
  not_neg : 0 ≤ s.onlineTcpConnCount
  sound : s.fault = false

theorem Inv.tablesAgree {s : TcpThread} (h : s.Inv) : s.TablesAgree where
  of_fd := by
    intro fd client hclient
    obtain ⟨ref, conn, href, hconn, hfd⟩ := h.rep.of_fd fd client hclient
    exact ⟨ref, conn, href, hconn, hfd, (h.rep.filed ref conn hconn).1⟩
  of_id := by
    intro id ref href
    obtain ⟨conn, hconn, hid⟩ := h.rep.of_id id ref href
    exact ⟨conn, hconn, hid, (h.rep.filed ref conn hconn).2⟩
  inuse := h.rep.inuse
  records := by
    intro htimer id
    cases href : s.connCenter.connIdHashMap id with
    | none => exact h.rep.recordExist_of_free href
    | some ref =>
        rcases h.recorded id ref href not_false with hrecord | ⟨hsome, -⟩
        · exact hrecord
        · simp [htimer] at hsome
  count := by
    have hids : {id | (s.connCenter.connIdHashMap id).isSome} =
        (s.connCenter.connIdSeq.inuseSeqs : Set ℤ) := by
      ext id
      exact (h.rep.inuse id).symm
    rw [h.count, hids, Set.ncard_coe_finset]
  not_neg := by
    rw [h.count]
    exact Int.natCast_nonneg _
  sound := h.sound

/-- No call to the logic closes a connection before it returns. -/
def ClosesOutsideCalls (s : TcpThread) : TcpAction → Prop
  | .closeClient _ => s.loops = []
  | _ => True

theorem ClosesOutsideCalls.closesFree {ctx : TcpThreadCtx} {s s' : TcpThread}
    {a : TcpAction} (h : s.ClosesOutsideCalls a) (hinv : s.Inv)
    (hstep : step ctx s a = some s') : s.ClosesFree a := by
  cases a with
  | closeClient connId =>
      have hloops : s.loops = [] := h
      have htimer : s.timeoutRecords = none := by
        by_contra hsome
        simp [step, hinv.sound, inLogic, hloops, hsome] at hstep
      intro ref _
      simp [busy, hloops, htimer]
  | _ => trivial

/-- **The tables agree along every run.**  Accepts, failing creations, fds that
are taken again, receives, sends, closes and timeouts may come in any order. -/
theorem run_tablesAgree (ctx : TcpThreadCtx) (actions : List TcpAction)
    (hguard : Guarded (step ctx) ClosesOutsideCalls init actions) :
    Along (step ctx) TablesAgree (fun _ _ _ => True) init actions := by
  refine Guarded.along_of_inv (fun s => Inv.tablesAgree) ?_ Inv.init hguard
  intro s a s' hinv hcalm hstep
  exact ⟨hinv.keep (hcalm.closesFree hinv hstep) hstep, trivial⟩

/-- An accept of an fd that is still there, and a timeout. -/
def reacceptActions : List TcpAction :=
  [.onAccept false 0 ⟨true, true⟩ 0 7, .logicReturns,
    .onAccept false 0 ⟨true, true⟩ 5 7, .logicReturns,
    .onTimer 100 (.scan ℤ ℕ), .nextTimeout, .logicReturns, .nextTimeout]

theorem run_tablesAgree_reaccepted :
    (run (step ⟨false, 1, ⟨60, 10, 100⟩⟩) init reacceptActions).map
        (·.onlineTcpConnCount) = some 0 ∧
      Along (step ⟨false, 1, ⟨60, 10, 100⟩⟩) TablesAgree (fun _ _ _ => True) init
        reacceptActions := by
  refine ⟨rfl, run_tablesAgree ⟨false, 1, ⟨60, 10, 100⟩⟩ reacceptActions ?_⟩
  exact fun _ _ => ⟨trivial, fun _ _ => ⟨trivial, fun _ _ => ⟨trivial,
    fun _ _ => ⟨trivial, fun _ _ => ⟨trivial, fun _ _ => ⟨trivial,
      fun _ _ => ⟨trivial, fun _ _ => ⟨trivial, trivial⟩⟩⟩⟩⟩⟩⟩⟩

end TcpThread

end CommonComponent
