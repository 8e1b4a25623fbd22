import CommonComponent.ConnCenterRun
import Mathlib.Tactic

/-!
# How a connection is closed

`ThreadSink::OnClientClosed` tells the modules first and destroys the connection
behind the last of them; until then the connection is in the tables and a module
finds it there.  `closeNotes` is what a run has done to end one connection.  If no
connection is closed that something is still to use, this is the one round
`closeRound`, as far as it has come.

A module that closes the connection it is told of, or another one of the batch
that `OnTimer` goes through, begins a second round.
-/

namespace CommonComponent

def ConnNote.closes (ref : ℕ) : ConnNote → Bool
  | .created _ => false
  | .told call conn _ => call = .onClientClosed && conn = ref
  | .destroyed conn => conn = ref
  | .decremented conn => conn = ref

/-- The first `told` modules hear of the end of a connection. -/
def tellRound (told ref : ℕ) : List ConnNote :=
  (List.range told).map (.told .onClientClosed ref)

/-- A whole round: every module hears of it once, then the connection is
destroyed and counted off. -/
def TcpThreadCtx.closeRound (ctx : TcpThreadCtx) (ref : ℕ) : List ConnNote :=
  tellRound (ctx.toTell .onClientClosed) ref ++ [.destroyed ref, .decremented ref]

theorem tellRound_succ (told ref : ℕ) :
    tellRound (told + 1) ref =
      tellRound told ref ++ [.told .onClientClosed ref told] := by
  simp [tellRound, List.range_succ]

theorem tellRound_initial {ctx : TcpThreadCtx} {told : ℕ}
    (hle : told ≤ ctx.toTell .onClientClosed) (ref : ℕ) :
    tellRound told ref <+: ctx.closeRound ref := by
  have hsplit : List.range told <+: List.range (ctx.toTell .onClientClosed) := by
    obtain ⟨more, hmore⟩ := Nat.exists_eq_add_of_le hle
    rw [hmore, List.range_add]
    exact List.prefix_append _ _
  exact (hsplit.map _).trans (List.prefix_append _ _)

theorem tellRound_ne_closeRound (ctx : TcpThreadCtx) (told ref : ℕ) :
    tellRound told ref ≠ ctx.closeRound ref := by
  intro heq
  have hmem : ConnNote.destroyed ref ∈ tellRound told ref := by
    rw [heq]
    simp [TcpThreadCtx.closeRound]
  simp [tellRound] at hmem

namespace TcpThread

open LabelledRun

variable {ctx : TcpThreadCtx} {s : TcpThread}

def closeNotes (s : TcpThread) (ref : ℕ) : List ConnNote :=
  s.log.filter (·.closes ref)

/-- How far the round of every connection has come. -/
structure RoundsOk (ctx : TcpThreadCtx) (s : TcpThread) : Prop where
  closing : ∀ loop ∈ s.loops, loop.call = .onClientClosed →
    loop.left ≤ ctx.toTell .onClientClosed ∧
      s.closeNotes loop.conn =
        tellRound (ctx.toTell .onClientClosed - loop.left) loop.conn
  quiet : ∀ ref, (s.connCenter.conns ref).isSome →
    (∀ loop ∈ s.loops, loop.call = .onClientClosed → loop.conn ≠ ref) →
      s.closeNotes ref = []
  unmade : ∀ ref, .created ref ∉ s.log → s.closeNotes ref = []
  gone : ∀ ref, .created ref ∈ s.log → s.connCenter.conns ref = none →
    s.closeNotes ref = ctx.closeRound ref
  made : ∀ ref, (s.connCenter.conns ref).isSome → .created ref ∈ s.log
  fresh : ∀ ref, .created ref ∈ s.log → ref < s.connCenter.nextConn

namespace RoundsOk

theorem init : RoundsOk ctx TcpThread.init where
  closing := by simp [TcpThread.init]
  quiet := fun _ _ _ => rfl
  unmade := fun _ _ => rfl
  gone := by simp [TcpThread.init]
  made := fun _ h => nomatch h
  fresh := by simp [TcpThread.init]

theorem of_same {s' : TcpThread} (h : RoundsOk ctx s) (hlog : s'.log = s.log)
    (hloops : s'.loops = s.loops)
    (hconns : s'.connCenter.conns = s.connCenter.conns)
    (hnext : s.connCenter.nextConn ≤ s'.connCenter.nextConn) :
    RoundsOk ctx s' := by
  have hnotes : ∀ ref, s'.closeNotes ref = s.closeNotes ref := by
    simp [closeNotes, hlog]
  constructor
  · simpa only [hnotes, hloops] using h.closing
  · simpa only [hnotes, hloops, hconns] using h.quiet
  · simpa only [hnotes, hlog] using h.unmade
  · simpa only [hnotes, hlog, hconns] using h.gone
  · simpa only [hlog, hconns] using h.made
  · rw [hlog]
    exact fun ref href => (h.fresh ref href).trans_le hnext

theorem pushLoop (h : RoundsOk ctx s) {call : LogicCall} {ref : ℕ}
    (hlive : (s.connCenter.conns ref).isSome)
    (hnone : ∀ loop ∈ s.loops, loop.call = .onClientClosed → loop.conn ≠ ref) :
    RoundsOk ctx (s.pushLoop ctx call ref) where
  closing := by
    intro loop hloop hcall
    rcases List.mem_cons.mp hloop with rfl | hloop
    · have hcall : call = .onClientClosed := hcall
      subst hcall
      refine ⟨le_rfl, (h.quiet ref hlive hnone).trans ?_⟩
      simp [tellRound]
    · exact h.closing loop hloop hcall
  quiet := by
    intro ref' hlive' hnone
    exact h.quiet ref' hlive' fun loop hloop =>
      hnone loop (List.mem_cons_of_mem _ hloop)
  unmade := h.unmade
  gone := h.gone
  made := h.made
  fresh := h.fresh

theorem filter_append_others {kept : ConnNote → Bool} {log : List ConnNote}
    (notes : List ConnNote) (hother : ∀ note ∈ notes, kept note = false) :
    (log ++ notes).filter kept = log.filter kept := by
  have hnone : notes.filter kept = [] :=
    List.filter_eq_nil_iff.mpr fun note hnote => by simp [hother note hnote]
  rw [List.filter_append, hnone, List.append_nil]

theorem conn_ne (hinv : s.Inv) {loop : LogicLoop} {outer : List LogicLoop}
    {ref : ℕ} (hloops : s.loops = loop :: outer) (huses : loop.uses = some ref) :
    ∀ loop' ∈ outer, loop'.call = .onClientClosed → loop'.conn ≠ ref := by
  intro loop' hloop' hcall heq
  refine (hinv.loop_uses hloops huses).1 (List.mem_append_left _ ?_)
  exact List.mem_filterMap.mpr ⟨loop', hloop', by simp [LogicLoop.uses, hcall, heq]⟩

theorem told (h : RoundsOk ctx s) (hinv : s.Inv) {call : LogicCall}
    {ref left : ℕ} {outer : List LogicLoop}
    (hloops : s.loops = ⟨call, ref, left + 1⟩ :: outer) :
    RoundsOk ctx (s.tellNext ctx) := by
  have huses : LogicLoop.uses ⟨call, ref, left + 1⟩ = some ref := by
    simp [LogicLoop.uses]
  have hothers := conn_ne hinv hloops huses
  rw [(hinv.told ctx hloops).1]
  have hnotes : ∀ ref', (call = .onClientClosed → ref' ≠ ref) →
      closeNotes { s with
        loops := ⟨call, ref, left⟩ :: outer
        log := s.log ++ [.told call ref (ctx.toTell call - (left + 1))] } ref' =
          s.closeNotes ref' := by
    intro ref' hne
    refine filter_append_others _ ?_
    simp only [List.mem_singleton, forall_eq, ConnNote.closes]
    by_cases hcall : call = .onClientClosed
    · simp [Ne.symm (hne hcall)]
    · simp [hcall]
  have hcreated : ∀ ref', ConnNote.created ref' ∈
      s.log ++ [.told call ref (ctx.toTell call - (left + 1))] ↔
        .created ref' ∈ s.log := by
    simp
  constructor
  · intro loop hloop hcall
    rcases List.mem_cons.mp hloop with rfl | hloop
    · have hcall : call = .onClientClosed := hcall
      subst hcall
      obtain ⟨hle, hround⟩ := h.closing _ (hloops ▸ List.mem_cons_self) rfl
      simp only at hle hround
      refine ⟨by simp only; omega, ?_⟩
      have hone : ctx.toTell .onClientClosed - left =
          ctx.toTell .onClientClosed - (left + 1) + 1 := by omega
      simp only [hone, tellRound_succ, ← hround]
      simp [closeNotes, ConnNote.closes]
    · rw [hnotes _ fun _ => hothers loop hloop hcall]
      exact h.closing loop (hloops ▸ List.mem_cons_of_mem _ hloop) hcall
  · intro ref' hlive hnone
    have hnone' := List.forall_mem_cons.mp hnone
    rw [hnotes ref' fun hcall => Ne.symm (hnone'.1 hcall)]
    refine h.quiet ref' hlive ?_
    rw [hloops]
    exact List.forall_mem_cons.mpr ⟨hnone'.1, hnone'.2⟩
  · intro ref' hnot
    rw [hcreated] at hnot
    rw [hnotes ref' ?_]
    · exact h.unmade ref' hnot
    · rintro - rfl
      obtain ⟨-, conn, hconn⟩ := hinv.loop_uses hloops huses
      exact hnot (h.made ref' (by simp [hconn]))
  · intro ref' hmade hnone
    rw [hcreated] at hmade
    rw [hnotes ref' ?_]
    · exact h.gone ref' hmade hnone
    · rintro - rfl
      obtain ⟨-, conn, hconn⟩ := hinv.loop_uses hloops huses
      simp [hconn] at hnone
  · exact fun ref' hlive => (hcreated ref').mpr (h.made ref' hlive)
  · exact fun ref' hmade => h.fresh ref' ((hcreated ref').mp hmade)

theorem ended (h : RoundsOk ctx s) {call : LogicCall} {ref : ℕ}
    {outer : List LogicLoop} (hloops : s.loops = ⟨call, ref, 0⟩ :: outer)
    (hcall : call ≠ .onClientClosed) : RoundsOk ctx (s.tellNext ctx) := by
  rw [tellNext_ended hloops hcall]
  exact
    { h with
      closing := fun loop hloop =>
        h.closing loop (hloops ▸ List.mem_cons_of_mem _ hloop)
      quiet := by
        intro ref' hlive hnone
        refine h.quiet ref' hlive ?_
        rw [hloops]
        exact List.forall_mem_cons.mpr ⟨fun heq => absurd heq hcall, hnone⟩ }

/-- Behind the last module the round is complete and the connection is gone. -/
theorem closed (h : RoundsOk ctx s) (hinv : s.Inv) {ref : ℕ}
    {outer : List LogicLoop}
    (hloops : s.loops = ⟨.onClientClosed, ref, 0⟩ :: outer) :
    RoundsOk ctx (s.tellNext ctx) := by
  have hothers := conn_ne hinv hloops rfl
  obtain ⟨conn, hconn, hnext, -⟩ := hinv.closed ctx hloops
  rw [hnext, ConnCenter.dropRecord_eq]
  set log := s.log ++ [ConnNote.destroyed ref, .decremented ref] with hlog
  have hnotes : ∀ ref', ref' ≠ ref →
      log.filter (·.closes ref') = s.closeNotes ref' := by
    intro ref' hne
    refine filter_append_others _ ?_
    simp [ConnNote.closes, Ne.symm hne]
  have hround : log.filter (·.closes ref) = ctx.closeRound ref := by
    obtain ⟨-, hround⟩ := h.closing _ (hloops ▸ List.mem_cons_self) rfl
    simp only [Nat.sub_zero] at hround
    rw [hlog, List.filter_append, TcpThreadCtx.closeRound, ← hround]
    simp [closeNotes, ConnNote.closes]
  have hcreated : ∀ ref', ConnNote.created ref' ∈ log ↔ .created ref' ∈ s.log := by
    simp [hlog]
  have hconns : ∀ ref', (Function.update s.connCenter.conns ref none) ref' =
      if ref' = ref then none else s.connCenter.conns ref' := by
    simp [Function.update_apply]
  constructor
  · intro loop hloop hcall
    rw [closeNotes, hnotes _ (hothers loop hloop hcall)]
    exact h.closing loop (hloops ▸ List.mem_cons_of_mem _ hloop) hcall
  · intro ref' hlive hnone
    simp only [ConnCenter.clear, hconns] at hlive
    by_cases heq : ref' = ref
    · simp [heq] at hlive
    · rw [if_neg heq] at hlive
      rw [closeNotes, hnotes ref' heq]
      refine h.quiet ref' hlive ?_
      rw [hloops]
      exact List.forall_mem_cons.mpr ⟨fun _ => Ne.symm heq, hnone⟩
  · intro ref' hnot
    rw [hcreated] at hnot
    rw [closeNotes, hnotes ref' ?_]
    · exact h.unmade ref' hnot
    · rintro rfl
      exact hnot (h.made ref' (by simp [hconn]))
  · intro ref' hmade hnone
    rw [hcreated] at hmade
    simp only [ConnCenter.clear, hconns] at hnone
    by_cases heq : ref' = ref
    · rw [heq]
      exact hround
    · rw [if_neg heq] at hnone
      rw [closeNotes, hnotes ref' heq]
      exact h.gone ref' hmade hnone
  · intro ref' hlive
    simp only [ConnCenter.clear, hconns] at hlive
    by_cases heq : ref' = ref
    · simp [heq] at hlive
    · rw [if_neg heq] at hlive
      exact (hcreated ref').mpr (h.made ref' hlive)
  · exact fun ref' hmade => h.fresh ref' ((hcreated ref').mp hmade)

theorem tellNext (h : RoundsOk ctx s) (hinv : s.Inv) :
    RoundsOk ctx (s.tellNext ctx) := by
  cases hloops : s.loops with
  | nil =>
      have hsame : s.tellNext ctx = s := by simp [TcpThread.tellNext, hloops]
      exact hsame.symm ▸ h
  | cons loop outer =>
      obtain ⟨call, ref, left⟩ := loop
      cases left with
      | succ left => exact h.told hinv hloops
      | zero =>
          by_cases hcall : call = .onClientClosed
          · subst hcall
            exact h.closed hinv hloops
          · exact h.ended hloops hcall

theorem created (h : RoundsOk ctx s) (hidle : s.idle = true) {s' : TcpThread}
    {conn : BaseConn}
    (hlog : s'.log = s.log ++ [ConnNote.created s.connCenter.nextConn])
    (hloops : s'.loops = s.loops)
    (hconns : s'.connCenter.conns =
      Function.update s.connCenter.conns s.connCenter.nextConn (some conn))
    (hnext : s'.connCenter.nextConn = s.connCenter.nextConn + 1) :
    RoundsOk ctx s' := by
  obtain ⟨hnone, -, -⟩ := Inv.busy_of_idle hidle
  have hnotes : ∀ ref, s'.closeNotes ref = s.closeNotes ref := by
    intro ref
    rw [closeNotes, hlog]
    refine filter_append_others _ ?_
    simp [ConnNote.closes]
  have hunmade : ConnNote.created s.connCenter.nextConn ∉ s.log :=
    fun hmade => lt_irrefl _ (h.fresh _ hmade)
  have hcreated : ∀ ref, ConnNote.created ref ∈ s'.log ↔
      .created ref ∈ s.log ∨ ref = s.connCenter.nextConn := by
    simp [hlog]
  constructor
  · simp [hloops, hnone]
  · intro ref hlive _
    rw [hnotes]
    by_cases heq : ref = s.connCenter.nextConn
    · exact heq ▸ h.unmade _ hunmade
    · rw [hconns, Function.update_of_ne heq] at hlive
      exact h.quiet ref hlive (by simp [hnone])
  · intro ref hnot
    rw [hcreated, not_or] at hnot
    rw [hnotes]
    exact h.unmade ref hnot.1
  · intro ref hmade hgone
    by_cases heq : ref = s.connCenter.nextConn
    · simp [hconns, heq] at hgone
    · rw [hconns, Function.update_of_ne heq] at hgone
      rw [hcreated] at hmade
      rw [hnotes]
      exact h.gone ref (hmade.resolve_right heq) hgone
  · intro ref hlive
    rw [hcreated]
    by_cases heq : ref = s.connCenter.nextConn
    · exact .inr heq
    · rw [hconns, Function.update_of_ne heq] at hlive
      exact .inl (h.made ref hlive)
  · intro ref hmade
    rw [hnext]
    rcases (hcreated ref).mp hmade with hmade | rfl
    · exact (h.fresh ref hmade).trans (Nat.lt_succ_self _)
    · exact Nat.lt_succ_self _

end RoundsOk

/-- The action closes no connection that something is still to use, and no accept
is of an fd whose connection is still there. -/
def ClosesNoneInUse (s : TcpThread) : TcpAction → Prop
  | .closeClient connId =>
      ∀ ref ∈ s.connCenter.getConnById connId, ref ∉ s.busy
  | .onAccept stopping connCountLimit _ _ sockFd =>
      stopping = true ∨
        (0 < connCountLimit ∧ connCountLimit ≤ s.onlineTcpConnCount) ∨
          s.connCenter.getConnBySockFd sockFd = none
  | _ => True

instance ClosesNoneInUse.decidable (s : TcpThread) :
    ∀ a, Decidable (s.ClosesNoneInUse a)
  | .closeClient connId =>
      inferInstanceAs (Decidable
        (∀ ref ∈ s.connCenter.getConnById connId, ref ∉ s.busy))
  | .onAccept stopping connCountLimit _ _ sockFd =>
      inferInstanceAs (Decidable (stopping = true ∨
        (0 < connCountLimit ∧ connCountLimit ≤ s.onlineTcpConnCount) ∨
          s.connCenter.getConnBySockFd sockFd = none))
  | .readCallback .. => isTrue trivial
  | .readMore _ => isTrue trivial
  | .connClosed _ => isTrue trivial
  | .sendToClient .. => isTrue trivial
  | .onTimer .. => isTrue trivial
  | .nextTimeout => isTrue trivial
  | .logicReturns => isTrue trivial

theorem ClosesNoneInUse.closesFree {a : TcpAction} (h : s.ClosesNoneInUse a) :
    s.ClosesFree a := by
  cases a <;> first | exact h | trivial

/-- Nothing of the connections, of the loops or of what has happened is different. -/
structure Unmoved (s s' : TcpThread) : Prop where
  conns : s'.connCenter.conns = s.connCenter.conns
  next : s.connCenter.nextConn ≤ s'.connCenter.nextConn
  loops : s'.loops = s.loops
  log : s'.log = s.log

theorem Unmoved.refl (s : TcpThread) : Unmoved s s := ⟨rfl, le_rfl, rfl, rfl⟩

theorem Refreshed.unmoved {s' : TcpThread} (h : Refreshed s s') : Unmoved s s' :=
  ⟨h.conns, h.next, h.loops, h.log⟩

/-- What a step does that closes nothing in use: at most one loop begins, for a
connection that no loop is to use, or goes on. -/
inductive Moves (ctx : TcpThreadCtx) (s : TcpThread) :
    TcpAction → TcpThread → Prop
  | stays {a s'} (hsame : Unmoved s s') : Moves ctx s a s'
  | begins {a s₁ ref} (call) (hsame : Unmoved s s₁)
      (hcall : call ≠ .onClientConnected)
      (hlive : (s₁.connCenter.conns ref).isSome)
      (hfree : ref ∉ s₁.loops.filterMap LogicLoop.uses)
      (hinv : (s₁.pushLoop ctx call ref).Inv) :
      Moves ctx s a (s₁.tellLogics ctx call ref)
  | creates {a} {s₁ : TcpThread} {conn} (hidle : s.idle = true)
      (hlog : s₁.log = s.log ++ [ConnNote.created s.connCenter.nextConn])
      (hloops : s₁.loops = s.loops)
      (hconns : s₁.connCenter.conns =
        Function.update s.connCenter.conns s.connCenter.nextConn (some conn))
      (hnext : s₁.connCenter.nextConn = s.connCenter.nextConn + 1)
      (hinv : (s₁.pushLoop ctx .onClientConnected s.connCenter.nextConn).Inv) :
      Moves ctx s a (s₁.tellLogics ctx .onClientConnected s.connCenter.nextConn)
  | returns (hloops : s.loops ≠ []) : Moves ctx s .logicReturns (s.tellNext ctx)

namespace Inv

theorem begins_of_idle (h : s.Inv) (hidle : s.idle = true) {s₁ : TcpThread}
    (hsame : Refreshed s s₁) {call : LogicCall} (hcall : call ≠ .onClientConnected)
    {ref : ℕ} (hlive : (s.connCenter.conns ref).isSome) (a : TcpAction) :
    Moves ctx s a (s₁.tellLogics ctx call ref) := by
  obtain ⟨hloops, htimer, -⟩ := busy_of_idle hidle
  have hlive₁ : (s₁.connCenter.conns ref).isSome := hsame.conns ▸ hlive
  refine .begins call hsame.unmoved hcall hlive₁ ?_ ?_
  · simp [hsame.loops, hloops]
  · refine (h.refreshed hsame).pushLoop hlive₁ ?_ ?_
    · simp [busy, hsame.loops, hsame.timer, hloops, htimer]
    · simp [hsame.timer, htimer]

theorem readCallback_moves (h : s.Inv) (hidle : s.idle = true) (stopping : Bool)
    (now sockFd : ℤ) (hasData : Bool) (a : TcpAction) :
    Moves ctx s a (s.readCallback ctx stopping now sockFd hasData) := by
  unfold TcpThread.readCallback
  cases stopping with
  | true => exact .stays (.refl s)
  | false =>
      cases hget : s.connCenter.getConnBySockFd sockFd with
      | none => exact .stays (.refl s)
      | some ref =>
          obtain ⟨conn, hconn, -⟩ := h.rep.of_getConnBySockFd hget
          obtain ⟨cc', calm, hupdate, hrep, hconns, hids, hseq, hnext, hrecords⟩ :=
            h.rep.updateConnStatus ctx.connCenterCtx now conn.connId true
          have hsame : Refreshed s { s with connCenter := cc' } :=
            ⟨hrep, hconns, hids, by rw [hseq], hrecords, hnext.ge, rfl, rfl, rfl,
              rfl, rfl⟩
          have hlive : (s.connCenter.conns ref).isSome := by simp [hconn]
          simp only [Bool.false_eq_true, if_false, hconn, hupdate]
          cases calm with
          | false => exact h.begins_of_idle hidle hsame (by decide) hlive a
          | true =>
              cases hasData with
              | true => exact h.begins_of_idle hidle hsame (by decide) hlive a
              | false => exact .stays hsame.unmoved

theorem onAccept_moves (h : s.Inv) (hidle : s.idle = true) {stopping : Bool}
    {connCountLimit : ℤ} (env : CreateConnEnv) (now : ℤ) {sockFd : ℤ}
    (hguard : s.ClosesNoneInUse
      (.onAccept stopping connCountLimit env now sockFd)) (a : TcpAction) :
    Moves ctx s a (s.onAccept ctx stopping connCountLimit env now sockFd) := by
  unfold onAccept
  split_ifs with hstop hroom
  · exact .stays (.refl s)
  · exact .stays (.refl s)
  · have hget : s.connCenter.getConnBySockFd sockFd = none :=
      (hguard.resolve_left hstop).resolve_left hroom
    unfold TcpThread.onClientConnected
    rw [hget]
    rcases h.createConn_cases ctx hidle env now
      (h.rep.connHashMap_of_getConn hget) with
      hsame | ⟨cc', conn, heq, hconns, hnext, hinv⟩
    · exact .stays hsame.unmoved
    · obtain ⟨hloops, htimer, -⟩ := busy_of_idle hidle
      simp only [heq]
      refine .creates hidle rfl rfl hconns hnext (hinv.pushLoop ?_ ?_ ?_)
      · simp [hconns]
      · simp [busy, hloops, htimer]
      · simp [htimer]

theorem moves (h : s.Inv) {s' : TcpThread} {a : TcpAction}
    (hguard : s.ClosesNoneInUse a) (hstep : step ctx s a = some s') :
    Moves ctx s a s' := by
  unfold step at hstep
  rw [if_neg (by simp [h.sound])] at hstep
  cases a with
  | onAccept stopping connCountLimit env now sockFd =>
      obtain ⟨hidle, hstep⟩ := Option.ite_none_right_eq_some.mp hstep
      cases hstep
      exact h.onAccept_moves hidle env now hguard _
  | readCallback stopping now sockFd hasData =>
      obtain ⟨hidle, hstep⟩ := Option.ite_none_right_eq_some.mp hstep
      cases hstep
      exact h.readCallback_moves hidle stopping now sockFd hasData _
  | readMore sockFd =>
      obtain ⟨hidle, hstep⟩ := Option.ite_none_right_eq_some.mp hstep
      cases hstep
      cases hget : s.connCenter.getConnBySockFd sockFd with
      | none => exact .stays (.refl s)
      | some ref =>
          obtain ⟨conn, hconn, -⟩ := h.rep.of_getConnBySockFd hget
          exact h.begins_of_idle hidle h.refl_refreshed (by decide) (by simp [hconn]) _
  | connClosed sockFd =>
      obtain ⟨hidle, hstep⟩ := Option.ite_none_right_eq_some.mp hstep
      cases hstep
      cases hget : s.connCenter.getConnBySockFd sockFd with
      | none => exact .stays (.refl s)
      | some ref =>
          obtain ⟨conn, hconn, -⟩ := h.rep.of_getConnBySockFd hget
          exact h.begins_of_idle hidle h.refl_refreshed (by decide) (by simp [hconn]) _
  | sendToClient now connId added =>
      obtain ⟨-, hstep⟩ := Option.ite_none_right_eq_some.mp hstep
      cases hstep
      exact .stays (h.sendToClient now connId added).unmoved
  | closeClient connId =>
      obtain ⟨-, hstep⟩ := Option.ite_none_right_eq_some.mp hstep
      cases hstep
      unfold closeClient
      cases hget : s.connCenter.getConnById connId with
      | none => exact .stays (.refl s)
      | some ref =>
          obtain ⟨conn, hconn, -⟩ := h.rep.of_id connId ref hget
          have hlive : (s.connCenter.conns ref).isSome := by simp [hconn]
          have hfree : ref ∉ s.busy := hguard ref hget
          refine .begins _ (.refl s) (by decide) hlive ?_
            (h.pushLoop hlive hfree fun _ => rfl)
          exact fun hmem => hfree (List.mem_append_left _ hmem)
  | onTimer now order =>
      obtain ⟨hidle, hstep⟩ := Option.ite_none_right_eq_some.mp hstep
      obtain ⟨⟨expired, rest⟩, htake, hstep⟩ := Option.map_eq_some_iff.mp hstep
      cases hstep
      exact .stays ⟨rfl, le_rfl, rfl, rfl⟩
  | nextTimeout =>
      dsimp only at hstep
      split at hstep
      · rename_i t rest hloops htimer
        cases hstep
        obtain ⟨hlive, hinv⟩ := h.nextTimeout ctx hloops htimer
        exact .begins _ ⟨rfl, le_rfl, rfl, rfl⟩ (by decide) hlive
          (by simp [hloops]) hinv
      · cases hstep
        exact .stays ⟨rfl, le_rfl, rfl, rfl⟩
      · cases hstep
  | logicReturns =>
      cases hloops : s.loops with
      | nil => simp [hloops] at hstep
      | cons loop outer =>
          simp only [hloops, Option.some.injEq] at hstep
          subst hstep
          exact .returns (by simp [hloops])

end Inv

/-- No loop over `OnClientClosed` is under way for a connection that no loop is to
use. -/
theorem closing_ne_of_free {ref : ℕ}
    (hfree : ref ∉ s.loops.filterMap LogicLoop.uses) :
    ∀ loop ∈ s.loops, loop.call = .onClientClosed → loop.conn ≠ ref := by
  rintro loop hloop hcall rfl
  exact hfree (List.mem_filterMap.mpr
    ⟨loop, hloop, by simp [LogicLoop.uses, hcall]⟩)

theorem RoundsOk.keep (h : RoundsOk ctx s) (hinv : s.Inv) {s' : TcpThread}
    {a : TcpAction} (hguard : s.ClosesNoneInUse a)
    (hstep : step ctx s a = some s') : RoundsOk ctx s' := by
  cases hinv.moves hguard hstep with
  | stays hsame => exact h.of_same hsame.log hsame.loops hsame.conns hsame.next
  | begins call hsame hcall hlive hfree hinv' =>
      have h' := h.of_same hsame.log hsame.loops hsame.conns hsame.next
      exact (h'.pushLoop hlive (closing_ne_of_free hfree)).tellNext hinv'
  | creates hidle hlog hloops hconns hnext hinv' =>
      obtain ⟨hnone, -, -⟩ := Inv.busy_of_idle hidle
      refine RoundsOk.tellNext (RoundsOk.pushLoop
        (h.created hidle hlog hloops hconns hnext) ?_ ?_) hinv'
      · simp [hconns]
      · simp [hloops, hnone]
  | returns hloops => exact h.tellNext hinv

/-- Every connection has at most one round of its end; it has all of it exactly
when it is gone, and none or all of it while nothing is under way. -/
structure ClosedOnce (ctx : TcpThreadCtx) (s : TcpThread) : Prop where
  round : ∀ ref, s.closeNotes ref <+: ctx.closeRound ref
  gone_iff : ∀ ref, .created ref ∈ s.log →
    (s.connCenter.conns ref = none ↔ s.closeNotes ref = ctx.closeRound ref)
  settled : s.idle = true → ∀ ref,
    s.closeNotes ref = [] ∨ s.closeNotes ref = ctx.closeRound ref
  tables : s.TablesAgree

/-- `ConnCenter::OnTimeout` is called for a connection that is there. -/
def TimeoutLive (s : TcpThread) (a : TcpAction) (_ : TcpThread) : Prop :=
  a = .nextTimeout → ∀ t ∈ (s.timeoutRecords.getD []).head?,
    (s.connCenter.conns t.v).isSome

theorem RoundsOk.closedOnce (h : RoundsOk ctx s) (hinv : s.Inv) :
    ClosedOnce ctx s := by
  have hcases : ∀ ref, (∃ told ≤ ctx.toTell .onClientClosed,
      s.closeNotes ref = tellRound told ref ∧
        ((told = 0) ∨ s.loops ≠ [])) ∨
      (s.closeNotes ref = ctx.closeRound ref ∧ s.connCenter.conns ref = none) := by
    intro ref
    by_cases hmade : ConnNote.created ref ∈ s.log
    · cases hconn : s.connCenter.conns ref with
      | none => exact .inr ⟨h.gone ref hmade hconn, rfl⟩
      | some conn =>
          left
          by_cases hclosing : ∃ loop ∈ s.loops,
              loop.call = .onClientClosed ∧ loop.conn = ref
          · obtain ⟨loop, hloop, hcall, rfl⟩ := hclosing
            exact ⟨_, Nat.sub_le _ _, (h.closing loop hloop hcall).2,
              .inr (List.ne_nil_of_mem hloop)⟩
          · refine ⟨0, Nat.zero_le _, h.quiet ref (by simp [hconn]) ?_, .inl rfl⟩
            exact fun loop hloop hcall heq => hclosing ⟨loop, hloop, hcall, heq⟩
    · exact .inl ⟨0, Nat.zero_le _, h.unmade ref hmade, .inl rfl⟩
  constructor
  · intro ref
    rcases hcases ref with ⟨told, hle, hnotes, -⟩ | ⟨hnotes, -⟩
    · exact hnotes ▸ tellRound_initial hle ref
    · rw [hnotes]
  · intro ref hmade
    refine ⟨h.gone ref hmade, fun hround => ?_⟩
    rcases hcases ref with ⟨told, hle, hnotes, -⟩ | ⟨-, hconn⟩
    · exact absurd (hnotes.symm.trans hround) (tellRound_ne_closeRound ctx told ref)
    · exact hconn
  · intro hidle ref
    obtain ⟨hloops, -, -⟩ := Inv.busy_of_idle hidle
    rcases hcases ref with ⟨told, -, hnotes, rfl | hloops'⟩ | ⟨hnotes, -⟩
    · exact .inl hnotes
    · exact absurd hloops hloops'
    · exact .inr hnotes
  · exact hinv.tablesAgree

/-- **One round for each connection**, as long as no connection is closed that the
thread is still to use. -/
theorem run_closedOnce (ctx : TcpThreadCtx) (actions : List TcpAction)
    (hguard : Guarded (step ctx) ClosesNoneInUse init actions) :
    Along (step ctx) (ClosedOnce ctx) TimeoutLive init actions := by
  have hgood : ∀ s : TcpThread, s.Inv ∧ RoundsOk ctx s → ClosedOnce ctx s :=
    fun s h => h.2.closedOnce h.1
  refine Guarded.along_of_inv hgood ?_ ⟨.init, .init⟩ hguard
  rintro s a s' ⟨hinv, h⟩ hclose hstep
  refine ⟨⟨hinv.keep hclose.closesFree hstep, h.keep hinv hclose hstep⟩, ?_⟩
  rintro rfl t ht
  obtain ⟨rest, htimer⟩ : ∃ rest, s.timeoutRecords.getD [] = t :: rest :=
    List.head?_eq_some_iff.mp ht
  refine hinv.busy_live t.v (List.mem_append_right _ ?_)
  simp [htimer]

section Examples

def oneLogic : TcpThreadCtx := ⟨false, 1, ⟨60, 10, 100⟩⟩

def acceptTwo : List TcpAction :=
  [.onAccept false 0 ⟨true, true⟩ 0 7, .logicReturns,
    .onAccept false 0 ⟨true, true⟩ 0 8, .logicReturns]

/-- Told of the end of one connection, the module closes the other. -/
def closesOther : List TcpAction :=
  acceptTwo ++ [.connClosed 7, .closeClient 2, .logicReturns, .logicReturns]

theorem run_closedOnce_other :
    (run (step oneLogic) init closesOther).map
          (fun t => (t.closeNotes 0, t.closeNotes 1, t.onlineTcpConnCount)) =
        some (oneLogic.closeRound 0, oneLogic.closeRound 1, 0) ∧
      Along (step oneLogic) (ClosedOnce oneLogic) TimeoutLive init closesOther :=
  ⟨by decide +kernel, run_closedOnce oneLogic closesOther (by decide +kernel)⟩

def closesSame : List TcpAction := acceptTwo ++ [.connClosed 7, .closeClient 1]

def closesNext : List TcpAction :=
  acceptTwo ++ [.onTimer 100 (.scan ℤ ℕ), .nextTimeout, .closeClient 2,
    .logicReturns, .logicReturns]

/-- The module hears twice of the end of the connection that it closes once more;
`OnTimer` finds the next one of its batch destroyed. -/
theorem not_closedOnce :
    ¬Along (step oneLogic) (ClosedOnce oneLogic) TimeoutLive init closesSame ∧
      ¬Along (step oneLogic) (ClosedOnce oneLogic) TimeoutLive init
        (closesNext ++ [.nextTimeout]) := by
  constructor
  · intro halong
    have hrun : (run (step oneLogic) init closesSame).map (·.closeNotes 0) =
        some [.told .onClientClosed 0 0, .told .onClientClosed 0 0] := by
      decide +kernel
    obtain ⟨t, ht, hnotes⟩ := Option.map_eq_some_iff.mp hrun
    have hround := (halong.last ht).round 0
    rw [hnotes] at hround
    revert hround
    decide
  · intro halong
    have hrun : (run (step oneLogic) init closesNext).map (fun t =>
        ((step oneLogic t .nextTimeout).isSome,
          (t.timeoutRecords.getD []).head?.map
            fun r => (t.connCenter.conns r.v).isSome)) =
        some (true, some false) := by decide +kernel
    obtain ⟨t, ht, hdead⟩ := Option.map_eq_some_iff.mp hrun
    rw [Prod.mk.injEq, Option.map_eq_some_iff] at hdead
    obtain ⟨hnext, r, hr, hgone⟩ := hdead
    obtain ⟨s', hs'⟩ := Option.isSome_iff_exists.mp hnext
    have hlive := ((halong.of_append ht).2 s' hs').1 rfl r hr
    simp [hgone] at hlive

end Examples

end TcpThread

end CommonComponent
