import CommonComponent.ConnCenter
import CommonComponent.LabelledRun
import Mathlib.Tactic

/-!
# Receive storms

`UpdateConnStatus` counts what a connection receives and looks at the count when the
receive comes `storm_interval` seconds or more after the counting began.  Such a
receive may come late, and is counted with those before it, so that the count says
little about how close together they were.

A run has the clock, the connections coming and going, and for each connection the
times of all it has received.
-/

namespace CommonComponent

open LabelledRun

/-- `received` has the receive times of each connection object. -/
structure StormRun where
  connCenter : ConnCenter
  now : ℤ
  received : ℕ → List ℤ

inductive StormAction
  | tick (seconds : ℕ)
  | createConn (env : CreateConnEnv) (sockFd : ℤ)
  | destroyConn (sockFd : ℤ)
  | updateConnStatus (connId : ℤ) (received : Bool)

namespace StormRun

def init : StormRun where
  connCenter := .empty
  now := 0
  received := fun _ => []

def receive (s : StormRun) (connId : ℤ) : ℕ → List ℤ :=
  match s.connCenter.connIdHashMap connId with
  | none => s.received
  | some ref => Function.update s.received ref (s.received ref ++ [s.now])

def step (ctx : ConnCenterCtx) (s : StormRun) : StormAction → Option StormRun
  | .tick seconds => some { s with now := s.now + seconds }
  | .createConn env sockFd =>
      -- the fd of a new connection is not that of one that is there
      if (s.connCenter.connHashMap sockFd).isSome then none
      else
        some { s with connCenter := (s.connCenter.createConn ctx env s.now sockFd).1 }
  | .destroyConn sockFd =>
      (s.connCenter.destroyConn sockFd).map fun result =>
        { s with connCenter := result.1 }
  | .updateConnStatus connId received =>
      (s.connCenter.updateConnStatus ctx s.now connId received).map fun result =>
        { s with
          connCenter := result.1
          received := if received then s.receive connId else s.received }

def countIn (times : List ℤ) (first last : ℤ) : ℤ :=
  (times.countP fun t => first ≤ t ∧ t ≤ last : ℕ)

/-- Enough of the times lie in one window of the interval's length that `now` is in. -/
def StormAt (ctx : ConnCenterCtx) (times : List ℤ) (now : ℤ) : Prop :=
  ∃ first, first ≤ now ∧ now ≤ first + ctx.stormInterval ∧
    ctx.stormThreshold ≤ countIn times first (first + ctx.stormInterval)

/-- A storm that is reported is one. -/
def ReportsStorm (ctx : ConnCenterCtx) (s : StormRun) (a : StormAction) (s' : StormRun) :
    Prop :=
  ∀ connId ref connCenter, a = .updateConnStatus connId true →
    s.connCenter.connIdHashMap connId = some ref →
    s.connCenter.updateConnStatus ctx s.now connId true = some (connCenter, false) →
    StormAt ctx (s'.received ref) s'.now

/-- A receive is not late, or not yet enough are counted, or enough of the earlier ones
were in the last `storm_interval` seconds. -/
def InTime (ctx : ConnCenterCtx) (s : StormRun) : StormAction → Prop
  | .updateConnStatus connId true =>
      ∀ ref conn client, s.connCenter.connIdHashMap connId = some ref →
        s.connCenter.conns ref = some conn →
        s.connCenter.connHashMap conn.sockFd = some client →
        s.now - client.startTime ≤ ctx.stormInterval ∨
          client.recvCount + 1 < ctx.stormThreshold ∨
          (0 ≤ ctx.stormInterval ∧ ctx.stormThreshold ≤
            countIn (s.received ref) (s.now - ctx.stormInterval) s.now + 1)
  | _ => True

/-- The times that a connection's count stands for come last, and not before its
counting began. -/
def Counted (s : StormRun) (ref : ℕ) (client : ClientCtx) : Prop :=
  ∃ earlier counted, s.received ref = earlier ++ counted ∧
    (counted.length : ℤ) = client.recvCount ∧ ∀ t ∈ counted, client.startTime ≤ t

structure Inv (s : StormRun) : Prop where
  rep : s.connCenter.Rep
  past : ∀ ref, ∀ t ∈ s.received ref, t ≤ s.now
  started : ∀ fd client, s.connCenter.connHashMap fd = some client →
    client.startTime ≤ s.now
  counted : ∀ ref conn client, s.connCenter.conns ref = some conn →
    s.connCenter.connHashMap conn.sockFd = some client → s.Counted ref client
  unused : ∀ ref, s.connCenter.nextConn ≤ ref → s.received ref = []

variable {ctx : ConnCenterCtx} {s s' : StormRun}

theorem Inv.init : init.Inv where
  rep := .empty
  past := fun _ _ h => nomatch h
  started := fun _ _ h => nomatch h
  counted := fun _ _ _ h => nomatch h
  unused := fun _ _ => rfl

/-! ## The steps that receive nothing -/

theorem Inv.tick (h : s.Inv) (seconds : ℕ) :
    Inv { s with now := s.now + seconds } where
  rep := h.rep
  past := fun ref t ht => (h.past ref t ht).trans (by simp)
  started := fun fd client hclient => (h.started fd client hclient).trans (by simp)
  counted := h.counted
  unused := h.unused

theorem createConn_clients {cc : ConnCenter} (h : cc.Rep) (ctx : ConnCenterCtx)
    (env : CreateConnEnv) (now : ℤ) {sockFd : ℤ} (hfd : cc.connHashMap sockFd = none) :
    ((cc.createConn ctx env now sockFd).1.conns = cc.conns ∧
        (cc.createConn ctx env now sockFd).1.connHashMap = cc.connHashMap) ∨
      ((∃ id, (cc.createConn ctx env now sockFd).1.conns =
          Function.update cc.conns cc.nextConn (some ⟨id, sockFd⟩)) ∧
        (cc.createConn ctx env now sockFd).1.connHashMap =
          Function.update cc.connHashMap sockFd (some ⟨some cc.nextConn, now, 0⟩)) := by
  unfold ConnCenter.createConn
  cases hmade : env.made with
  | false => exact .inl ⟨rfl, rfl⟩
  | true =>
      simp only [Bool.not_true, Bool.false_eq_true, if_false]
      rcases cc.connIdSeq.alloc_cases with
        ⟨halloc, -⟩ | ⟨id, hrange, hfree, halloc⟩
      · rw [halloc]
        exact .inl ⟨rfl, rfl⟩
      · have hpos := SeqNum.one_le_of_range hrange
        have hvalid : id ≠ invalidSeqNum := by
          unfold invalidSeqNum
          omega
        rw [halloc]
        simp only [if_neg hvalid, h.connIdHashMap_of_free hfree,
          Option.isSome_none, Bool.or_false]
        cases env.initialized with
        | false =>
            simp only [Bool.not_false, if_true, h.discard hrange hfree hfd]
            exact .inl ⟨trivial, trivial⟩
        | true => exact .inr ⟨⟨id, rfl⟩, rfl⟩

theorem Inv.createConn (h : s.Inv) (env : CreateConnEnv) {sockFd : ℤ}
    (hfd : s.connCenter.connHashMap sockFd = none) :
    Inv { s with connCenter := (s.connCenter.createConn ctx env s.now sockFd).1 } := by
  have hcreates := h.rep.createConn ctx env s.now hfd
  have hrep : (s.connCenter.createConn ctx env s.now sockFd).1.Rep ∧
      s.connCenter.nextConn ≤
        (s.connCenter.createConn ctx env s.now sockFd).1.nextConn := by
    cases hresult : s.connCenter.createConn ctx env s.now sockFd with
    | mk cc' made =>
        rw [hresult] at hcreates
        cases hcreates with
        | failed hrep _ _ _ _ hnext => exact ⟨hrep, hnext⟩
        | created hrep _ _ _ _ _ hnext =>
            exact ⟨hrep, (Nat.le_succ _).trans hnext.symm.le⟩
  refine ⟨hrep.1, h.past, ?_, ?_, fun ref hle => h.unused ref (hrep.2.trans hle)⟩
  · intro fd client hclient
    rcases createConn_clients h.rep ctx env s.now hfd with ⟨-, hmap⟩ | ⟨-, hmap⟩
    · exact h.started fd client (hmap ▸ hclient)
    · rw [hmap] at hclient
      by_cases heq : fd = sockFd
      · rw [heq, Function.update_self, Option.some.injEq] at hclient
        exact hclient ▸ le_rfl
      · rw [Function.update_of_ne heq] at hclient
        exact h.started fd client hclient
  · intro ref conn client hconn hclient
    rcases createConn_clients h.rep ctx env s.now hfd with
      ⟨hconns, hmap⟩ | ⟨⟨id, hconns⟩, hmap⟩
    · exact h.counted ref conn client (hconns ▸ hconn) (hmap ▸ hclient)
    · rw [hconns] at hconn
      rw [hmap] at hclient
      by_cases heq : ref = s.connCenter.nextConn
      · rw [heq, Function.update_self, Option.some.injEq] at hconn
        rw [← hconn, Function.update_self, Option.some.injEq] at hclient
        rw [← hclient]
        exact ⟨[], [], by rw [h.unused ref heq.ge]; rfl, rfl, nofun⟩
      · rw [Function.update_of_ne heq] at hconn
        have hne : conn.sockFd ≠ sockFd := by
          rintro rfl
          have hfiled := (h.rep.filed ref conn hconn).2
          rw [ConnCenter.getConnBySockFd, hfd] at hfiled
          cases hfiled
        rw [Function.update_of_ne hne] at hclient
        exact h.counted ref conn client hconn hclient

theorem Inv.destroyConn (h : s.Inv) {sockFd : ℤ} {result : ConnCenter × Option ℕ}
    (hdestroy : s.connCenter.destroyConn sockFd = some result) :
    Inv { s with connCenter := result.1 } := by
  cases hclient : s.connCenter.connHashMap sockFd with
  | none =>
      rw [ConnCenter.destroyConn, hclient, Option.some.injEq] at hdestroy
      exact hdestroy ▸ h
  | some client =>
      obtain ⟨ref, conn, -, hconn, rfl⟩ := h.rep.of_fd sockFd client hclient
      rw [h.rep.destroyConn hconn, Option.some.injEq] at hdestroy
      subst hdestroy
      have hrep := h.rep.leave hconn
      rw [ConnCenter.dropRecord_eq] at hrep ⊢
      refine ⟨hrep, h.past, ?_, ?_, h.unused⟩
      · intro fd client' hclient'
        by_cases heq : fd = conn.sockFd
        · simp [ConnCenter.clear, heq] at hclient'
        · exact h.started fd client' (by simpa [ConnCenter.clear, heq] using hclient')
      · intro ref' conn' client' hconn' hclient'
        by_cases hfd : conn'.sockFd = conn.sockFd
        · simp [ConnCenter.clear, hfd] at hclient'
        · by_cases href : ref' = ref
          · simp [ConnCenter.clear, href] at hconn'
          · exact h.counted ref' conn' client'
              (by simpa [ConnCenter.clear, href] using hconn')
              (by simpa [ConnCenter.clear, hfd] using hclient')

/-! ## A receive -/

/-- The count goes up, or starts again; a storm is the late receive that finds the
threshold reached. -/
theorem updateConnStatus_received {cc : ConnCenter} (ctx : ConnCenterCtx)
    (now : ℤ) {connId : ℤ} {ref : ℕ} {conn : BaseConn} {client : ClientCtx}
    (hid : cc.connIdHashMap connId = some ref) (hconn : cc.conns ref = some conn)
    (hclient : cc.connHashMap conn.sockFd = some client) :
    ∃ cc' client' calm, cc.updateConnStatus ctx now connId true = some (cc', calm) ∧
      cc'.connHashMap = Function.update cc.connHashMap conn.sockFd (some client') ∧
      (client' = { client with recvCount := client.recvCount + 1 } ∨
        client' = { client with startTime := now, recvCount := 0 }) ∧
      (calm = false ↔ ctx.stormInterval ≤ now - client.startTime ∧
        ctx.stormThreshold ≤ client.recvCount + 1) := by
  unfold ConnCenter.updateConnStatus
  simp only [hid, if_true, hconn, hclient, Option.map_some, Option.getD_some]
  split_ifs with hlate hcount
  · exact ⟨_, _, false, rfl, rfl, .inl rfl, by simp [hlate, hcount]⟩
  · exact ⟨_, _, true, rfl, rfl, .inr rfl, by simp [hcount]⟩
  · exact ⟨_, _, true, rfl, rfl, .inl rfl, by simp [hlate]⟩

theorem Inv.client (h : s.Inv) {connId : ℤ} {ref : ℕ}
    (hid : s.connCenter.connIdHashMap connId = some ref) :
    ∃ conn client, s.connCenter.conns ref = some conn ∧
      s.connCenter.connHashMap conn.sockFd = some client := by
  obtain ⟨conn, hconn, -⟩ := h.rep.of_id connId ref hid
  have hfiled := (h.rep.filed ref conn hconn).2
  obtain ⟨client, hclient, -⟩ := Option.bind_eq_some_iff.mp hfiled
  exact ⟨conn, client, hconn, hclient⟩

theorem Inv.receive (h : s.Inv) {cc : ConnCenter} {ref : ℕ} {conn : BaseConn}
    {client client' : ClientCtx} (hconn : s.connCenter.conns ref = some conn)
    (hclient : s.connCenter.connHashMap conn.sockFd = some client) (hrep : cc.Rep)
    (hconns : cc.conns = s.connCenter.conns) (hnext : cc.nextConn = s.connCenter.nextConn)
    (hmap : cc.connHashMap =
      Function.update s.connCenter.connHashMap conn.sockFd (some client'))
    (hcases : client' = { client with recvCount := client.recvCount + 1 } ∨
      client' = { client with startTime := s.now, recvCount := 0 }) :
    Inv ⟨cc, s.now, Function.update s.received ref (s.received ref ++ [s.now])⟩ := by
  have hstarted : client.startTime ≤ s.now := h.started conn.sockFd client hclient
  refine ⟨hrep, fun ref' t ht => ?_, fun fd client'' hfd => ?_,
    fun ref' conn' client'' hconn' hclient'' => ?_, fun ref' hle => ?_⟩
  · dsimp only at ht ⊢
    by_cases href : ref' = ref
    · rw [href, Function.update_self, List.mem_append, List.mem_singleton] at ht
      exact ht.elim (h.past ref t) (fun heq => heq.le)
    · rw [Function.update_of_ne href] at ht
      exact h.past ref' t ht
  · dsimp only at hfd ⊢
    rw [hmap] at hfd
    by_cases heq : fd = conn.sockFd
    · rw [heq, Function.update_self, Option.some.injEq] at hfd
      rw [← hfd]
      rcases hcases with rfl | rfl
      · exact hstarted
      · exact le_rfl
    · rw [Function.update_of_ne heq] at hfd
      exact h.started fd client'' hfd
  · dsimp only at hconn' hclient''
    unfold Counted
    dsimp only
    rw [hconns] at hconn'
    rw [hmap] at hclient''
    by_cases href : ref' = ref
    · rw [href, hconn, Option.some.injEq] at hconn'
      rw [← hconn', Function.update_self, Option.some.injEq] at hclient''
      rw [← hclient'', href]
      obtain ⟨earlier, counted, hsplit, hlength, hafter⟩ :=
        h.counted ref conn client hconn hclient
      rcases hcases with rfl | rfl
      · refine ⟨earlier, counted ++ [s.now], ?_, ?_, ?_⟩
        · rw [Function.update_self, hsplit, List.append_assoc]
        · rw [List.length_append, List.length_singleton]
          push_cast
          rw [hlength]
        · intro t ht
          rw [List.mem_append, List.mem_singleton] at ht
          exact ht.elim (hafter t) (fun heq => hstarted.trans heq.ge)
      · refine ⟨s.received ref ++ [s.now], [], ?_, rfl, nofun⟩
        rw [Function.update_self, List.append_nil]
    · have hne : conn'.sockFd ≠ conn.sockFd := fun hfd =>
        href (h.rep.ref_eq_of_sockFd hconn' hconn hfd)
      rw [Function.update_of_ne hne] at hclient''
      obtain ⟨earlier, counted, hsplit, hrest⟩ :=
        h.counted ref' conn' client'' hconn' hclient''
      exact ⟨earlier, counted, by rw [Function.update_of_ne href, hsplit], hrest⟩
  · dsimp only at hle ⊢
    have hne : ref' ≠ ref := by
      rintro rfl
      rw [hnext] at hle
      rw [h.rep.unused _ hle] at hconn
      cases hconn
    rw [Function.update_of_ne hne]
    exact h.unused ref' (hnext ▸ hle)

theorem Inv.update (h : s.Inv) {connId : ℤ} {received : Bool}
    {result : ConnCenter × Bool}
    (hupdate : s.connCenter.updateConnStatus ctx s.now connId received = some result) :
    Inv { s with
      connCenter := result.1
      received := if received then s.receive connId else s.received } := by
  obtain ⟨cc', calm, hresult, hrep, hconns, -, -, hnext, -⟩ :=
    h.rep.updateConnStatus ctx s.now connId received
  rw [hupdate, Option.some.injEq] at hresult
  subst hresult
  cases hid : s.connCenter.connIdHashMap connId with
  | none =>
      have hsame : cc' = s.connCenter := by
        rw [ConnCenter.updateConnStatus, hid, Option.some.injEq, Prod.mk.injEq] at hupdate
        exact hupdate.1.symm
      subst hsame
      have hreceived : (if received then s.receive connId else s.received) =
          s.received := by
        rw [StormRun.receive, hid]
        split_ifs <;> rfl
      rw [hreceived]
      exact h
  | some ref =>
      cases received with
      | false =>
          have hmap : cc'.connHashMap = s.connCenter.connHashMap := by
            rw [ConnCenter.updateConnStatus, hid] at hupdate
            obtain rfl := (Prod.mk.inj (Option.some.inj hupdate)).1
            rfl
          exact ⟨hrep, h.past, fun fd client hclient => h.started fd client (hmap ▸ hclient),
            fun ref conn client hconn hclient =>
              h.counted ref conn client (hconns ▸ hconn) (hmap ▸ hclient),
            fun ref hle => h.unused ref (hnext ▸ hle)⟩
      | true =>
          obtain ⟨conn, client, hconn, hclient⟩ := h.client hid
          obtain ⟨cc'', client', calm', hresult', hmap, hcases, -⟩ :=
            updateConnStatus_received ctx s.now hid hconn hclient
          rw [hupdate, Option.some.injEq, Prod.mk.injEq] at hresult'
          obtain ⟨rfl, rfl⟩ := hresult'
          have hreceived : s.receive connId =
              Function.update s.received ref (s.received ref ++ [s.now]) := by
            rw [StormRun.receive, hid]
          rw [if_pos rfl, hreceived]
          exact h.receive hconn hclient hrep hconns hnext hmap hcases

theorem Inv.step (h : s.Inv) {a : StormAction} (hstep : s.step ctx a = some s') :
    s'.Inv := by
  cases a with
  | tick seconds => exact Option.some.inj hstep ▸ h.tick seconds
  | createConn env sockFd =>
      simp only [StormRun.step] at hstep
      split_ifs at hstep with hsome
      rw [Bool.not_eq_true, Option.isSome_eq_false_iff, Option.isNone_iff_eq_none] at hsome
      exact Option.some.inj hstep ▸ h.createConn env hsome
  | destroyConn sockFd =>
      obtain ⟨result, hdestroy, rfl⟩ := Option.map_eq_some_iff.mp hstep
      exact h.destroyConn hdestroy
  | updateConnStatus connId received =>
      obtain ⟨result, hupdate, rfl⟩ := Option.map_eq_some_iff.mp hstep
      exact h.update hupdate

/-! ## Whether a storm is one -/

theorem countIn_append (times times' : List ℤ) (first last : ℤ) :
    countIn (times ++ times') first last =
      countIn times first last + countIn times' first last := by
  simp [countIn, List.countP_append]

theorem countIn_nonneg (times : List ℤ) (first last : ℤ) : 0 ≤ countIn times first last :=
  Int.natCast_nonneg _

theorem countIn_eq_length {times : List ℤ} {first last : ℤ}
    (hin : ∀ t ∈ times, first ≤ t ∧ t ≤ last) :
    countIn times first last = times.length := by
  rw [countIn, List.countP_eq_length.mpr (by simpa using hin)]

theorem countIn_singleton_le (t first last : ℤ) : countIn [t] first last ≤ 1 := by
  rw [countIn, List.countP_singleton]
  split_ifs <;> simp

/-- A window that `now` is in has no more of the times than the last one. -/
theorem countIn_le {times : List ℤ} {first interval now : ℤ}
    (hpast : ∀ t ∈ times, t ≤ now) (hwindow : now ≤ first + interval) :
    countIn times first (first + interval) ≤ countIn times (now - interval) now := by
  unfold countIn
  refine Int.ofNat_le.mpr (List.countP_mono_left fun t ht hin => ?_)
  rw [decide_eq_true_eq] at hin ⊢
  exact ⟨by omega, hpast t ht⟩

/-- When the late receive is a storm. -/
theorem Inv.stormAt_iff (h : s.Inv) {ref : ℕ} {conn : BaseConn} {client : ClientCtx}
    (hconn : s.connCenter.conns ref = some conn)
    (hclient : s.connCenter.connHashMap conn.sockFd = some client)
    (hlate : ctx.stormInterval ≤ s.now - client.startTime)
    (hcount : ctx.stormThreshold ≤ client.recvCount + 1) :
    StormAt ctx (s.received ref ++ [s.now]) s.now ↔
      s.now - client.startTime ≤ ctx.stormInterval ∨
        (0 ≤ ctx.stormInterval ∧ ctx.stormThreshold ≤
          countIn (s.received ref) (s.now - ctx.stormInterval) s.now + 1) := by
  have hstarted := h.started conn.sockFd client hclient
  constructor
  · rintro ⟨first, hfirst, hlast, henough⟩
    right
    rw [countIn_append] at henough
    have hbefore := countIn_le (h.past ref) hlast
    have hnow := countIn_singleton_le s.now first (first + ctx.stormInterval)
    exact ⟨by omega, by omega⟩
  · intro hcondition
    have hinterval : 0 ≤ ctx.stormInterval := by
      rcases hcondition with hontime | ⟨hinterval, -⟩
      · omega
      · exact hinterval
    have hrecent : ctx.stormThreshold ≤
        countIn (s.received ref) (s.now - ctx.stormInterval) s.now + 1 := by
      rcases hcondition with hontime | ⟨-, hrecent⟩
      · -- all that is counted is in the window that ends now
        obtain ⟨earlier, counted, hsplit, hlength, hafter⟩ :=
          h.counted ref conn client hconn hclient
        have hin : ∀ t ∈ counted, s.now - ctx.stormInterval ≤ t ∧ t ≤ s.now := by
          intro t ht
          have hlow := hafter t ht
          exact ⟨by omega, h.past ref t (by simp [hsplit, ht])⟩
        have hearlier := countIn_nonneg earlier (s.now - ctx.stormInterval) s.now
        rw [hsplit, countIn_append, countIn_eq_length hin]
        omega
      · exact hrecent
    refine ⟨s.now - ctx.stormInterval, by omega, by omega, ?_⟩
    rw [show s.now - ctx.stormInterval + ctx.stormInterval = s.now by omega,
      countIn_append]
    have hone : countIn [s.now] (s.now - ctx.stormInterval) s.now = 1 :=
      countIn_eq_length fun t ht => by
        obtain rfl := List.mem_singleton.mp ht
        exact ⟨by omega, le_rfl⟩
    rw [hone]
    exact hrecent

/-- **What a storm report says.**  It is right exactly when the receive is in time. -/
theorem Inv.reportsStorm_iff (h : s.Inv) {a : StormAction} (hstep : s.step ctx a = some s') :
    ReportsStorm ctx s a s' ↔ InTime ctx s a := by
  cases a with
  | tick | createConn | destroyConn =>
      exact ⟨fun _ => trivial, fun _ _ _ _ ha => nomatch ha⟩
  | updateConnStatus connId received =>
      cases received with
      | false => exact ⟨fun _ => trivial, fun _ _ _ _ ha => nomatch ha⟩
      | true =>
          obtain ⟨result, hupdate, rfl⟩ := Option.map_eq_some_iff.mp hstep
          constructor
          · intro hreports ref conn client hid hconn hclient
            obtain ⟨cc, client', calm, hresult, -, -, hstorm⟩ :=
              updateConnStatus_received ctx s.now hid hconn hclient
            by_cases hcount : ctx.stormThreshold ≤ client.recvCount + 1
            · by_cases hlate : ctx.stormInterval ≤ s.now - client.startTime
              · have hfalse : calm = false := hstorm.mpr ⟨hlate, hcount⟩
                rw [hfalse] at hresult
                have hat := hreports connId ref cc rfl hid hresult
                rw [if_pos rfl, StormRun.receive, hid] at hat
                dsimp only at hat
                rw [Function.update_self,
                  h.stormAt_iff hconn hclient hlate hcount] at hat
                exact hat.imp_right .inr
              · exact .inl (by omega)
            · exact .inr (.inl (by omega))
          · rintro hinTime _ ref cc ⟨⟩ hid hfalse
            obtain ⟨conn, client, hconn, hclient⟩ := h.client hid
            obtain ⟨_, client', calm, hresult, -, -, hstorm⟩ :=
              updateConnStatus_received ctx s.now hid hconn hclient
            rw [hfalse, Option.some.injEq, Prod.mk.injEq] at hresult
            obtain ⟨hlate, hcount⟩ := hstorm.mp hresult.2.symm
            rw [if_pos rfl, StormRun.receive, hid]
            dsimp only
            rw [Function.update_self, h.stormAt_iff hconn hclient hlate hcount]
            rcases hinTime ref conn client hid hconn hclient with hontime | hfew | henough
            · exact .inl hontime
            · exact absurd hcount (not_le.mpr hfew)
            · exact .inr henough

/-- **No false storm.**  In a run every storm that is reported is one, exactly when
every receive is in time. -/
theorem reportsStorm_iff_inTime (ctx : ConnCenterCtx) (actions : List StormAction) :
    Along (step ctx) (fun _ => True) (ReportsStorm ctx) init actions ↔
      Guarded (step ctx) (InTime ctx) init actions := by
  have hkeep : ∀ s a s', Inv s → InTime ctx s a → s.step ctx a = some s' →
      s'.Inv ∧ ReportsStorm ctx s a s' := fun s a s' h hinTime hstep =>
    ⟨h.step hstep, (h.reportsStorm_iff hstep).mpr hinTime⟩
  have hneed : ∀ s a s', Inv s → s.step ctx a = some s' → ReportsStorm ctx s a s' →
      True → InTime ctx s a := fun s a s' h hstep hreports _ =>
    (h.reportsStorm_iff hstep).mp hreports
  exact along_iff_guarded (fun _ _ => trivial) hkeep hneed actions Inv.init

/-- One receive, and after a hundred seconds another. -/
def lateReceive : List StormAction :=
  [.createConn ⟨true, true⟩ 7, .updateConnStatus 1 true, .tick 100]

theorem not_reportsStorm_late : ¬∀ (ctx : ConnCenterCtx) (actions : List StormAction),
    Along (step ctx) (fun _ => True) (ReportsStorm ctx) init actions := by
  intro hall
  have hrun : (run (step ⟨60, 1, 2⟩) init lateReceive).map (fun s =>
      (s.connCenter.connIdHashMap 1,
        (s.connCenter.updateConnStatus ⟨60, 1, 2⟩ s.now 1 true).map (·.2))) =
      some (some 0, some false) := by decide +kernel
  have hreceived : (run (step ⟨60, 1, 2⟩) init lateReceive).bind (fun s =>
      (s.step ⟨60, 1, 2⟩ (.updateConnStatus 1 true)).map fun s' =>
        (s'.received 0, s'.now)) = some ([0, 100], 100) := by decide +kernel
  obtain ⟨s, hs, hstate⟩ := Option.map_eq_some_iff.mp hrun
  rw [Prod.mk.injEq, Option.map_eq_some_iff] at hstate
  obtain ⟨hid, ⟨cc, calm⟩, hupdate, hcalm⟩ := hstate
  rw [hs, Option.bind_some, Option.map_eq_some_iff] at hreceived
  obtain ⟨s', hstep, htimes⟩ := hreceived
  obtain ⟨htimes, hnow⟩ := Prod.mk.inj htimes
  have hlater := (hall ⟨60, 1, 2⟩ (lateReceive ++ [.updateConnStatus 1 true])).of_append hs
  obtain ⟨first, -, hlast, henough⟩ :=
    (hlater.2 s' hstep).1 1 0 cc rfl hid (by rw [hupdate, ← hcalm])
  rw [hnow] at hlast
  rw [htimes] at henough
  dsimp only at hlast henough
  have hone : countIn [0, 100] first (first + 1) ≤ 1 := by
    have hfirst : countIn [0] first (first + 1) = 0 := by
      rw [countIn, List.countP_singleton, if_neg (by simp; omega)]
      rfl
    have happend := countIn_append [0] [100] first (first + 1)
    have hle := countIn_singleton_le 100 first (first + 1)
    rw [List.singleton_append, hfirst] at happend
    omega
  omega

end StormRun

end CommonComponent
