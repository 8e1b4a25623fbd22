import CommonComponent.ConnCenterClose
import Mathlib.Tactic

/-!
# Connections and the tables of the logic

A module is told of a connection with `OnClientConnected` and of its end with
`OnClientClosed`.  In between `WebLogic` keeps an entry of `http_conn_ctx_map_`
for it, and `WebLogic` and `ProtoLogic` may keep a record in `part_msg_mgr_`; both
refer to the connection object by its address.

As long as nothing is closed that is in use, each module hears of a connection, of
its end, and then it is destroyed, in this order and once each, and the tables
refer to live connections.  An accept of an fd that is still in the connection
table destroys the old connection without a word.
-/

namespace CommonComponent

/-- What a module of a thread keeps of the connections. -/
structure LogicTables where
  httpConnCtxMap : ℤ → Option ℕ
  partMsgMgr : RecordTimeoutMgr ℕ ℤ

/-- Which modules are a `WebLogic`, and for which connections they can make an
`HTTPConnCtx`. -/
structure TcpLogics where
  isWeb : ℕ → Bool
  created : ℕ → ℕ → Bool

namespace LogicTables

def init : LogicTables where
  httpConnCtxMap := fun _ => none
  partMsgMgr := .empty

/-- `OnClientConnected`; a `ProtoLogic` only clears the data of the connection. -/
def onClientConnected (tables : LogicTables) (cc : ConnCenter) (ref : ℕ)
    (created : Bool) : LogicTables :=
  match cc.conns ref with
  | none => tables
  | some guid =>
      match cc.getConnById guid.connId with
      | none => tables
      | some conn =>
          if !created then tables
          else if (tables.httpConnCtxMap guid.connId).isSome then tables
          else
            { tables with
              httpConnCtxMap :=
                Function.update tables.httpConnCtxMap guid.connId (some conn) }

/-- `OnClientClosed`, as far as it is done behind the calls of its own modules. -/
def onClientClosed (tables : LogicTables) (cc : ConnCenter) (ref : ℕ) :
    LogicTables :=
  match cc.conns ref with
  | none => tables
  | some guid =>
      match cc.getConnById guid.connId with
      | none => tables
      | some conn =>
          { httpConnCtxMap := Function.update tables.httpConnCtxMap guid.connId none
            partMsgMgr := tables.partMsgMgr.removeRecord conn }

/-- `RecordPartMsg`. -/
def recordPartMsg (tables : LogicTables) (cc : ConnCenter) (now connId life : ℤ) :
    LogicTables :=
  match cc.getConnById connId with
  | none => tables
  | some conn =>
      { tables with
        partMsgMgr := tables.partMsgMgr.upsertRecord now conn connId life }

def removeRecord (tables : LogicTables) (cc : ConnCenter) (connId : ℤ) :
    LogicTables :=
  match cc.getConnById connId with
  | none => tables
  | some conn => { tables with partMsgMgr := tables.partMsgMgr.removeRecord conn }

/-- An entry of the map or a record is for this connection object. -/
def Refers (tables : LogicTables) (ref : ℕ) : Prop :=
  (∃ id, tables.httpConnCtxMap id = some ref) ∨
    tables.partMsgMgr.recordExist ref = true

end LogicTables

/-- A thread together with the tables of its modules. -/
structure LogicRun where
  thread : TcpThread
  tables : ℕ → LogicTables

/-- `recordPartMsg` and `removeRecord` are what a module does to its
`part_msg_mgr_` while it is given data of a connection.  The timer of a
`part_msg_mgr_` takes the overdue records out; each `CloseClient` for one of them
is a `closeClient` of the thread. -/
inductive LogicAction
  | tcp (a : TcpAction)
  | recordPartMsg (now life : ℤ)
  | removeRecord
  | partMsgTimer (logic : ℕ) (now : ℤ)

namespace TcpThread

/-- The module that returns from `OnClientClosed`, with the connection. -/
def leavesClosed (ctx : TcpThreadCtx) (s : TcpThread) :
    TcpAction → Option (ℕ × ℕ)
  | .logicReturns =>
      match s.loops with
      | ⟨.onClientClosed, ref, left⟩ :: _ =>
          some (ctx.toTell .onClientClosed - (left + 1), ref)
      | _ => none
  | _ => none

/-- The module that is given data, with the connection; `OnRecvClientData` is
called from the event loop only. -/
def receiving (ctx : TcpThreadCtx) (s : TcpThread) : Option (ℕ × BaseConn) :=
  match s.loops with
  | [⟨.onRecvClientData, ref, left⟩] =>
      if left < ctx.logicItems then
        (s.connCenter.conns ref).map fun conn =>
          (ctx.commonLogic.toNat + (ctx.logicItems - (left + 1)), conn)
      else none
  | _ => none

end TcpThread

namespace LogicRun

open LabelledRun

def init : LogicRun where
  thread := .init
  tables := fun _ => .init

def hear (logics : TcpLogics) (cc : ConnCenter) (tables : ℕ → LogicTables) :
    ConnNote → ℕ → LogicTables
  | .told .onClientConnected ref logic =>
      Function.update tables logic
        ((tables logic).onClientConnected cc ref
          (logics.isWeb logic && logics.created logic ref))
  | _ => tables

def leave (ctx : TcpThreadCtx) (s : LogicRun) (a : TcpAction) :
    ℕ → LogicTables :=
  match s.thread.leavesClosed ctx a with
  | none => s.tables
  | some (logic, ref) =>
      Function.update s.tables logic
        ((s.tables logic).onClientClosed s.thread.connCenter ref)

def put (s : LogicRun) (logic : ℕ) (tables : LogicTables) : LogicRun :=
  { s with tables := Function.update s.tables logic tables }

def step (logics : TcpLogics) (ctx : TcpThreadCtx) (s : LogicRun) :
    LogicAction → Option LogicRun
  | .tcp a =>
      (s.thread.step ctx a).map fun t =>
        { thread := t
          tables := (t.log.drop s.thread.log.length).foldl
            (hear logics t.connCenter) (s.leave ctx a) }
  | .recordPartMsg now life =>
      (s.thread.receiving ctx).map fun (logic, conn) =>
        s.put logic
          ((s.tables logic).recordPartMsg s.thread.connCenter now conn.connId life)
  | .removeRecord =>
      (s.thread.receiving ctx).map fun (logic, conn) =>
        s.put logic ((s.tables logic).removeRecord s.thread.connCenter conn.connId)
  | .partMsgTimer logic now =>
      if s.thread.idle then
        ((s.tables logic).partMsgMgr.takeExpired now).map fun (_, rest) =>
          s.put logic { s.tables logic with partMsgMgr := rest }
      else none

end LogicRun

namespace TcpThread

/-- The first `told` modules hear of a new connection. -/
def greetRound (told ref : ℕ) : List ConnNote :=
  (List.range told).map (.told .onClientConnected ref)

theorem greetRound_succ (told ref : ℕ) :
    greetRound (told + 1) ref =
      greetRound told ref ++ [.told .onClientConnected ref told] := by
  simp [greetRound, List.range_succ]

end TcpThread

def ConnNote.greets (ref : ℕ) : ConnNote → Bool
  | .told call conn _ => call = .onClientConnected && conn = ref
  | _ => false

/-- What one module hears of a connection, and its end. -/
def ConnNote.pairs (logic ref : ℕ) : ConnNote → Bool
  | .created _ => false
  | .told call conn logic' => call ≠ .onRecvClientData && conn = ref && logic' = logic
  | .destroyed conn => conn = ref
  | .decremented _ => false

namespace TcpThread

variable {ctx : TcpThreadCtx} {s : TcpThread}

def lifeNotes (s : TcpThread) (ref : ℕ) : List ConnNote :=
  s.log.filter fun note => note.greets ref || note.closes ref

def pairNotes (s : TcpThread) (logic ref : ℕ) : List ConnNote :=
  s.log.filter (·.pairs logic ref)

/-- A connection, its end, and its destruction. -/
def pairRound (logic ref : ℕ) : List ConnNote :=
  [.told .onClientConnected ref logic, .told .onClientClosed ref logic,
    .destroyed ref]

/-- Every module hears of a connection before any hears of its end. -/
structure Greets (ctx : TcpThreadCtx) (s : TcpThread) : Prop where
  greeting : ∀ loop ∈ s.loops, loop.call = .onClientConnected → 0 < loop.left →
    loop.left ≤ ctx.toTell .onClientConnected ∧
      s.lifeNotes loop.conn =
        greetRound (ctx.toTell .onClientConnected - loop.left) loop.conn
  greeted : ∀ ref, .created ref ∈ s.log →
    (∀ loop ∈ s.loops, loop.call = .onClientConnected → 0 < loop.left →
      loop.conn ≠ ref) →
      s.lifeNotes ref =
        greetRound (ctx.toTell .onClientConnected) ref ++ s.closeNotes ref
  unmade : ∀ ref, .created ref ∉ s.log → s.lifeNotes ref = []

namespace Greets

theorem init : Greets ctx TcpThread.init where
  greeting := by simp [TcpThread.init]
  greeted := by simp [TcpThread.init]
  unmade := fun _ _ => rfl

theorem of_same {s' : TcpThread} (h : Greets ctx s) (hlog : s'.log = s.log)
    (hloops : s'.loops = s.loops) : Greets ctx s' := by
  have hlife : ∀ ref, s'.lifeNotes ref = s.lifeNotes ref := by
    simp [lifeNotes, hlog]
  have hclose : ∀ ref, s'.closeNotes ref = s.closeNotes ref := by
    simp [closeNotes, hlog]
  constructor
  · simpa only [hlife, hloops] using h.greeting
  · simpa only [hlife, hclose, hloops, hlog] using h.greeted
  · simpa only [hlife, hlog] using h.unmade

theorem pushLoop (h : Greets ctx s) {call : LogicCall} (ref : ℕ)
    (hcall : call ≠ .onClientConnected) : Greets ctx (s.pushLoop ctx call ref) where
  greeting := by
    intro loop hloop hgreets
    rcases List.mem_cons.mp hloop with rfl | hloop
    · exact absurd hgreets hcall
    · exact h.greeting loop hloop hgreets
  greeted := by
    intro ref' hmade hnone
    exact h.greeted ref' hmade fun loop hloop =>
      hnone loop (List.mem_cons_of_mem _ hloop)
  unmade := h.unmade

theorem created (h : Greets ctx s) (hrounds : RoundsOk ctx s)
    (hidle : s.idle = true) {s' : TcpThread}
    (hlog : s'.log = s.log ++ [ConnNote.created s.connCenter.nextConn])
    (hloops : s'.loops = s.loops) :
    Greets ctx (s'.pushLoop ctx .onClientConnected s.connCenter.nextConn) := by
  obtain ⟨hnone, -, -⟩ := Inv.busy_of_idle hidle
  set ref := s.connCenter.nextConn
  set s'' := s'.pushLoop ctx .onClientConnected ref
  have hlog'' : s''.log = s.log ++ [.created ref] := hlog
  have hloops'' : s''.loops =
      [⟨.onClientConnected, ref, ctx.toTell .onClientConnected⟩] := by
    simp [s'', TcpThread.pushLoop, hloops, hnone]
  have hlife : ∀ ref', s''.lifeNotes ref' = s.lifeNotes ref' := by
    intro ref'
    rw [lifeNotes, hlog'']
    refine RoundsOk.filter_append_others _ ?_
    simp [ConnNote.greets, ConnNote.closes]
  have hclose : ∀ ref', s''.closeNotes ref' = s.closeNotes ref' := by
    intro ref'
    rw [closeNotes, hlog'']
    refine RoundsOk.filter_append_others _ ?_
    simp [ConnNote.closes]
  have hunmade : ConnNote.created ref ∉ s.log :=
    fun hmade => lt_irrefl _ (hrounds.fresh _ hmade)
  have hnew : s''.lifeNotes ref = [] := (hlife ref).trans (h.unmade ref hunmade)
  constructor
  · rw [hloops'']
    intro loop hloop _ _
    obtain rfl := List.mem_singleton.mp hloop
    exact ⟨le_rfl, hnew.trans (by simp [greetRound])⟩
  · intro ref' hmade hother
    rw [hlife, hclose]
    rw [hlog''] at hmade
    rcases List.mem_append.mp hmade with hmade | hmade
    · refine h.greeted ref' hmade ?_
      simp [hnone]
    · have heq : ref' = ref := by simpa using hmade
      have hzero : ctx.toTell .onClientConnected = 0 := by
        by_contra hpos
        exact hother ⟨.onClientConnected, ref, ctx.toTell .onClientConnected⟩
          (by simp [hloops'']) rfl (Nat.pos_of_ne_zero hpos) heq.symm
      rw [heq, h.unmade ref hunmade, hrounds.unmade ref hunmade, hzero]
      rfl
  · intro ref' hnot
    rw [hlife]
    refine h.unmade ref' fun hmade => hnot ?_
    rw [hlog'']
    exact List.mem_append_left _ hmade

theorem greeted_append {log round : List ConnNote} {ref : ℕ}
    (notes : List ConnNote) (hnone : ∀ note ∈ notes, note.greets ref = false)
    (hround : log.filter (fun note => note.greets ref || note.closes ref) =
      round ++ log.filter (·.closes ref)) :
    (log ++ notes).filter (fun note => note.greets ref || note.closes ref) =
      round ++ (log ++ notes).filter (·.closes ref) := by
  have hsame : notes.filter (fun note => note.greets ref || note.closes ref) =
      notes.filter (·.closes ref) :=
    List.filter_congr fun note hnote => by rw [hnone note hnote, Bool.false_or]
  rw [List.filter_append, List.filter_append, hround, hsame, List.append_assoc]

theorem told (h : Greets ctx s) (hinv : s.Inv) (hrounds : RoundsOk ctx s)
    {call : LogicCall} {ref left : ℕ} {outer : List LogicLoop}
    (hloops : s.loops = ⟨call, ref, left + 1⟩ :: outer) :
    Greets ctx (s.tellNext ctx) := by
  have huses : LogicLoop.uses ⟨call, ref, left + 1⟩ = some ref := by
    simp [LogicLoop.uses]
  obtain ⟨hfree, conn, hconn⟩ := hinv.loop_uses hloops huses
  have hmade : ConnNote.created ref ∈ s.log := hrounds.made ref (by simp [hconn])
  have hothers : ∀ loop ∈ outer, loop.uses = some loop.conn → loop.conn ≠ ref := by
    rintro loop hloop huses' rfl
    exact hfree (List.mem_append_left _ (List.mem_filterMap.mpr ⟨loop, hloop, huses'⟩))
  have hgreets : ∀ loop : LogicLoop, 0 < loop.left → loop.uses = some loop.conn :=
    fun loop hleft => by simp [LogicLoop.uses, hleft]
  rw [(hinv.told ctx hloops).1]
  set note := ConnNote.told call ref (ctx.toTell call - (left + 1)) with hnote
  have hcreated : ∀ ref', ConnNote.created ref' ∈ s.log ++ [note] ↔
      .created ref' ∈ s.log := by
    simp [hnote]
  have hlife : ∀ ref', ref' ≠ ref →
      (s.log ++ [note]).filter (fun n => n.greets ref' || n.closes ref') =
        s.lifeNotes ref' := by
    intro ref' hne
    refine RoundsOk.filter_append_others _ ?_
    simp [hnote, ConnNote.greets, ConnNote.closes, Ne.symm hne]
  have hgreeting : call = .onClientConnected →
      left + 1 ≤ ctx.toTell .onClientConnected ∧
        (s.log ++ [note]).filter (fun n => n.greets ref || n.closes ref) =
          greetRound (ctx.toTell .onClientConnected - left) ref := by
    rintro rfl
    obtain ⟨hle, hround⟩ :=
      h.greeting _ (hloops ▸ List.mem_cons_self) rfl (Nat.succ_pos left)
    simp only at hle hround
    have hone : ctx.toTell .onClientConnected - left =
        ctx.toTell .onClientConnected - (left + 1) + 1 := by omega
    refine ⟨hle, ?_⟩
    rw [hone, greetRound_succ, ← hround, List.filter_append]
    simp [lifeNotes, hnote, ConnNote.greets]
  constructor
  · intro loop hloop hcall hleft
    rcases List.mem_cons.mp hloop with rfl | hloop
    · obtain ⟨hle, hround⟩ := hgreeting hcall
      exact ⟨by simp only; omega, hround⟩
    · have hmem : loop ∈ s.loops := hloops ▸ List.mem_cons_of_mem _ hloop
      rw [lifeNotes, hlife _ (hothers loop hloop (hgreets loop hleft))]
      exact h.greeting loop hmem hcall hleft
  · intro ref' hmade' hnone
    rw [hcreated] at hmade'
    have hnone' := List.forall_mem_cons.mp hnone
    by_cases hlast : call = .onClientConnected ∧ ref' = ref
    · -- The last module has been told of the new connection.
      obtain ⟨hcall, rfl⟩ := hlast
      have hzero : left = 0 := by
        by_contra hpos
        exact hnone'.1 hcall (Nat.pos_of_ne_zero hpos) rfl
      have hquiet : s.closeNotes ref' = [] := by
        refine hrounds.quiet ref' (by simp [hconn]) ?_
        rw [hloops]
        refine List.forall_mem_cons.mpr ⟨by simp [hcall], fun loop hloop hcall' => ?_⟩
        exact hothers loop hloop (by simp [LogicLoop.uses, hcall'])
      have hsame : closeNotes { s with
          loops := ⟨call, ref', left⟩ :: outer
          log := s.log ++ [note] } ref' = s.closeNotes ref' := by
        refine RoundsOk.filter_append_others _ ?_
        simp [hnote, hcall, ConnNote.closes]
      rw [hsame, hquiet, List.append_nil, lifeNotes, (hgreeting hcall).2, hzero,
        Nat.sub_zero]
    · refine greeted_append _ ?_ (h.greeted ref' hmade' ?_)
      · have hother : ¬(call = .onClientConnected ∧ ref = ref') :=
          fun heq => hlast ⟨heq.1, heq.2.symm⟩
        simpa [hnote, ConnNote.greets] using hother
      · rw [hloops]
        refine List.forall_mem_cons.mpr ⟨fun hcall _ heq => ?_, hnone'.2⟩
        exact hlast ⟨hcall, heq.symm⟩
  · intro ref' hnot
    rw [hcreated] at hnot
    have heq : ref' ≠ ref := by
      rintro rfl
      exact hnot hmade
    rw [lifeNotes, hlife ref' heq]
    exact h.unmade ref' hnot

theorem ended (h : Greets ctx s) {call : LogicCall} {ref : ℕ}
    {outer : List LogicLoop} (hloops : s.loops = ⟨call, ref, 0⟩ :: outer)
    (hcall : call ≠ .onClientClosed) : Greets ctx (s.tellNext ctx) := by
  rw [tellNext_ended hloops hcall]
  exact
    { h with
      greeting := fun loop hloop =>
        h.greeting loop (hloops ▸ List.mem_cons_of_mem _ hloop)
      greeted := by
        intro ref' hmade hnone
        refine h.greeted ref' hmade ?_
        rw [hloops]
        exact List.forall_mem_cons.mpr ⟨by simp, hnone⟩ }

theorem closed (h : Greets ctx s) (hinv : s.Inv) (hrounds : RoundsOk ctx s)
    {ref : ℕ} {outer : List LogicLoop}
    (hloops : s.loops = ⟨.onClientClosed, ref, 0⟩ :: outer) :
    Greets ctx (s.tellNext ctx) := by
  obtain ⟨conn, hconn, hnext, -⟩ := hinv.closed ctx hloops
  rw [hnext]
  have hcreated : ∀ ref', ConnNote.created ref' ∈
      s.log ++ [ConnNote.destroyed ref, .decremented ref] ↔ .created ref' ∈ s.log := by
    simp
  have hlife : ∀ ref', ref' ≠ ref →
      (s.log ++ [ConnNote.destroyed ref, ConnNote.decremented ref]).filter
        (fun n => n.greets ref' || n.closes ref') = s.lifeNotes ref' := by
    intro ref' hne
    refine RoundsOk.filter_append_others _ ?_
    simp [ConnNote.greets, ConnNote.closes, Ne.symm hne]
  constructor
  · intro loop hloop hcall hleft
    have hne : loop.conn ≠ ref := by
      rintro rfl
      refine (hinv.loop_uses hloops rfl).1 (List.mem_append_left _ ?_)
      exact List.mem_filterMap.mpr ⟨loop, hloop, by simp [LogicLoop.uses, hleft]⟩
    rw [lifeNotes, hlife _ hne]
    exact h.greeting loop (hloops ▸ List.mem_cons_of_mem _ hloop) hcall hleft
  · intro ref' hmade hnone
    rw [hcreated] at hmade
    refine greeted_append _ ?_ (h.greeted ref' hmade ?_)
    · simp [ConnNote.greets]
    · rw [hloops]
      exact List.forall_mem_cons.mpr ⟨by simp, hnone⟩
  · intro ref' hnot
    rw [hcreated] at hnot
    have hne : ref' ≠ ref := by
      rintro rfl
      exact hnot (hrounds.made ref' (by simp [hconn]))
    rw [lifeNotes, hlife _ hne]
    exact h.unmade ref' hnot

theorem tellNext (h : Greets ctx s) (hinv : s.Inv) (hrounds : RoundsOk ctx s) :
    Greets ctx (s.tellNext ctx) := by
  cases hloops : s.loops with
  | nil =>
      have hsame : s.tellNext ctx = s := by simp [TcpThread.tellNext, hloops]
      exact hsame.symm ▸ h
  | cons loop outer =>
      obtain ⟨call, ref, left⟩ := loop
      cases left with
      | succ left => exact h.told hinv hrounds hloops
      | zero =>
          by_cases hcall : call = .onClientClosed
          · subst hcall
            exact h.closed hinv hrounds hloops
          · exact h.ended hloops hcall

theorem keep (h : Greets ctx s) (hinv : s.Inv) (hrounds : RoundsOk ctx s)
    {s' : TcpThread} {a : TcpAction} (hmoves : Moves ctx s a s') :
    Greets ctx s' := by
  cases hmoves with
  | stays hsame => exact h.of_same hsame.log hsame.loops
  | @begins _ s₁ ref call hsame hcall hlive hfree hinv' =>
      have h' : Greets ctx s₁ := h.of_same hsame.log hsame.loops
      have hrounds' : RoundsOk ctx s₁ :=
        hrounds.of_same hsame.log hsame.loops hsame.conns hsame.next
      exact (h'.pushLoop ref hcall).tellNext hinv'
        (hrounds'.pushLoop hlive (closing_ne_of_free hfree))
  | creates hidle hlog hloops hconns hnext hinv' =>
      obtain ⟨hnone, -, -⟩ := Inv.busy_of_idle hidle
      have hrounds' := hrounds.created hidle hlog hloops hconns hnext
      refine (h.created hrounds hidle hlog hloops).tellNext hinv'
        (hrounds'.pushLoop ?_ ?_)
      · simp [hconns]
      · simp [hloops, hnone]
  | returns hloops => exact h.tellNext hinv hrounds

end Greets

theorem filter_pairs_round {call : LogicCall} (hcall : call ≠ .onRecvClientData)
    (told logic ref : ℕ) :
    ((List.range told).map (ConnNote.told call ref)).filter (·.pairs logic ref) =
      if logic < told then [.told call ref logic] else [] := by
  induction told with
  | zero => rfl
  | succ told ih =>
      rw [List.range_succ, List.map_append, List.filter_append, ih]
      by_cases heq : logic = told
      · simp [heq, ConnNote.pairs, hcall]
      · have hle : logic < told + 1 ↔ logic < told := by omega
        simp [hle, ConnNote.pairs, Ne.symm heq]

theorem pairNotes_eq (logic ref : ℕ) :
    s.pairNotes logic ref = (s.lifeNotes ref).filter (·.pairs logic ref) := by
  rw [pairNotes, lifeNotes, List.filter_filter]
  refine List.filter_congr fun note _ => ?_
  cases note with
  | told call conn logic' =>
      cases call <;>
        simp +contextual [ConnNote.pairs, ConnNote.greets, ConnNote.closes]
  | _ => simp +contextual [ConnNote.pairs, ConnNote.closes]

/-- What a module hears of a connection is a beginning of one round. -/
theorem Greets.pairNotes_prefix (h : Greets ctx s) (hrounds : ClosedOnce ctx s)
    {logic : ℕ} (hlogic : logic < ctx.toTell .onClientClosed) (ref : ℕ) :
    s.pairNotes logic ref <+: pairRound logic ref := by
  have hgreets : ∀ told, (greetRound told ref).filter (·.pairs logic ref) <+:
      [.told .onClientConnected ref logic] := by
    intro told
    rw [greetRound, filter_pairs_round (by decide)]
    split_ifs
    · exact List.prefix_rfl
    · exact List.nil_prefix
  rw [pairNotes_eq]
  by_cases hmade : ConnNote.created ref ∈ s.log
  · by_cases hgreeting : ∃ loop ∈ s.loops,
        loop.call = .onClientConnected ∧ 0 < loop.left ∧ loop.conn = ref
    · obtain ⟨loop, hloop, hcall, hleft, rfl⟩ := hgreeting
      rw [(h.greeting loop hloop hcall hleft).2]
      exact (hgreets _).trans (List.prefix_append _ _)
    · have hgreeted := h.greeted ref hmade fun loop hloop hcall hleft heq =>
        hgreeting ⟨loop, hloop, hcall, hleft, heq⟩
      have htold : (greetRound (ctx.toTell .onClientConnected) ref).filter
          (·.pairs logic ref) = [.told .onClientConnected ref logic] := by
        have hlogic' : logic < ctx.toTell .onClientConnected := hlogic
        rw [greetRound, filter_pairs_round (by decide), if_pos hlogic']
      have hround : (ctx.closeRound ref).filter (·.pairs logic ref) =
          [.told .onClientClosed ref logic, .destroyed ref] := by
        rw [TcpThreadCtx.closeRound, tellRound, List.filter_append,
          filter_pairs_round (by decide), if_pos hlogic]
        simp [ConnNote.pairs]
      have hclose := (hrounds.round ref).filter (·.pairs logic ref)
      rw [hround] at hclose
      rw [hgreeted, List.filter_append, htold]
      exact (List.prefix_append_right_inj _).mpr hclose
  · rw [h.unmade ref hmade]
    exact List.nil_prefix

end TcpThread

/-- An entry of the tables of a module is for a live connection whose end the
module has not been told of yet, or is being told of. -/
structure TablesOk (ctx : TcpThreadCtx) (s : TcpThread)
    (tables : ℕ → LogicTables) : Prop where
  mapped : ∀ logic id ref, (tables logic).httpConnCtxMap id = some ref →
    ∃ conn, s.connCenter.conns ref = some conn ∧ conn.connId = id
  recorded : ∀ logic ref, (tables logic).partMsgMgr.recordExist ref = true →
    (s.connCenter.conns ref).isSome
  told : ∀ logic ref, (tables logic).Refers ref →
    logic < ctx.toTell .onClientClosed ∧
      ∀ loop ∈ s.loops, loop.call = .onClientClosed → loop.conn = ref →
        ctx.toTell .onClientClosed ≤ logic + loop.left + 1

/-- Nor is the module that has just returned from `OnClientClosed`. -/
structure TablesLeft (ctx : TcpThreadCtx) (s : TcpThread)
    (tables : ℕ → LogicTables) : Prop extends TablesOk ctx s tables where
  left : ∀ loop ∈ s.loops.head?, loop.call = .onClientClosed →
    ∀ logic, (tables logic).Refers loop.conn →
      ctx.toTell .onClientClosed ≤ logic + loop.left

namespace TablesOk

variable {ctx : TcpThreadCtx} {s : TcpThread} {tables : ℕ → LogicTables}

theorem init : TablesOk ctx TcpThread.init fun _ => .init where
  mapped := fun _ _ _ h => nomatch h
  recorded := fun _ _ h => nomatch h
  told := by
    rintro logic ref (⟨id, h⟩ | h)
    · exact nomatch h
    · exact nomatch h

theorem refers_live (h : TablesOk ctx s tables) {logic ref : ℕ}
    (hrefers : (tables logic).Refers ref) : (s.connCenter.conns ref).isSome := by
  rcases hrefers with ⟨id, hmap⟩ | hrecord
  · obtain ⟨conn, hconn, -⟩ := h.mapped logic id ref hmap
    simp [hconn]
  · exact h.recorded logic ref hrecord

/-- The connections of the entries are as they were, and no loop has begun. -/
theorem of_live {s' : TcpThread} (h : TablesOk ctx s tables)
    (hconns : ∀ logic ref, (tables logic).Refers ref →
      s'.connCenter.conns ref = s.connCenter.conns ref)
    (hloops : ∀ loop ∈ s'.loops, loop ∈ s.loops) : TablesOk ctx s' tables where
  mapped := by
    intro logic id ref hmap
    rw [hconns logic ref (.inl ⟨id, hmap⟩)]
    exact h.mapped logic id ref hmap
  recorded := by
    intro logic ref hrecord
    rw [hconns logic ref (.inr hrecord)]
    exact h.recorded logic ref hrecord
  told := by
    intro logic ref hrefers
    obtain ⟨hlogic, hloop⟩ := h.told logic ref hrefers
    exact ⟨hlogic, fun loop hmem => hloop loop (hloops loop hmem)⟩

/-- One module keeps fewer entries, or new ones for connections that are live. -/
theorem update (h : TablesOk ctx s tables) {logic : ℕ} {new : LogicTables}
    (hmapped : ∀ id ref, new.httpConnCtxMap id = some ref →
      (tables logic).httpConnCtxMap id = some ref ∨
        ∃ conn, s.connCenter.conns ref = some conn ∧ conn.connId = id)
    (hlive : ∀ ref, new.Refers ref → (tables logic).Refers ref ∨
      ((s.connCenter.conns ref).isSome ∧ logic < ctx.toTell .onClientClosed ∧
        ∀ loop ∈ s.loops, loop.call = .onClientClosed → loop.conn ≠ ref)) :
    TablesOk ctx s (Function.update tables logic new) where
  mapped := by
    intro logic' id ref hmap
    by_cases heq : logic' = logic
    · rw [heq, Function.update_self] at hmap
      exact (hmapped id ref hmap).elim (h.mapped logic id ref) fun hnew => hnew
    · rw [Function.update_of_ne heq] at hmap
      exact h.mapped logic' id ref hmap
  recorded := by
    intro logic' ref hrecord
    by_cases heq : logic' = logic
    · rw [heq, Function.update_self] at hrecord
      exact (hlive ref (.inr hrecord)).elim h.refers_live And.left
    · rw [Function.update_of_ne heq] at hrecord
      exact h.recorded logic' ref hrecord
  told := by
    intro logic' ref hrefers
    by_cases heq : logic' = logic
    · rw [heq, Function.update_self] at hrefers
      rcases hlive ref hrefers with hold | ⟨-, hlogic, hnone⟩
      · exact heq ▸ h.told logic ref hold
      · exact heq ▸ ⟨hlogic, fun loop hloop hcall hconn =>
          absurd hconn (hnone loop hloop hcall)⟩
    · rw [Function.update_of_ne heq] at hrefers
      exact h.told logic' ref hrefers

theorem pushLoop (h : TablesOk ctx s tables) (call : LogicCall) (ref : ℕ) :
    TablesLeft ctx (s.pushLoop ctx call ref) tables where
  mapped := h.mapped
  recorded := h.recorded
  told := by
    intro logic ref' hrefers
    obtain ⟨hlogic, hloop⟩ := h.told logic ref' hrefers
    refine ⟨hlogic, List.forall_mem_cons.mpr ⟨fun hcall _ => ?_, hloop⟩⟩
    have hcall : call = .onClientClosed := hcall
    simp only [hcall]
    omega
  left := by
    intro loop hloop hcall logic _
    obtain rfl : ⟨call, ref, ctx.toTell call⟩ = loop := by
      simpa [TcpThread.pushLoop] using hloop
    have hcall : call = .onClientClosed := hcall
    simp only [hcall]
    omega

theorem onClientConnected (h : TablesOk ctx s tables) (hinv : s.Inv)
    {logic ref : ℕ} (hlogic : logic < ctx.toTell .onClientClosed)
    (hnone : ∀ loop ∈ s.loops, loop.call = .onClientClosed → loop.conn ≠ ref)
    (created : Bool) :
    TablesOk ctx s (Function.update tables logic
      ((tables logic).onClientConnected s.connCenter ref created)) := by
  have hsame : TablesOk ctx s (Function.update tables logic (tables logic)) := by
    rwa [Function.update_eq_self]
  unfold LogicTables.onClientConnected
  cases hconn : s.connCenter.conns ref with
  | none => exact hsame
  | some guid =>
      simp only [ConnCenter.getConnById, (hinv.rep.filed ref guid hconn).1]
      split_ifs
      · exact hsame
      · exact hsame
      · have hnew : ∀ id ref', Function.update (tables logic).httpConnCtxMap
            guid.connId (some ref) id = some ref' →
              (tables logic).httpConnCtxMap id = some ref' ∨
                (id = guid.connId ∧ ref' = ref) := by
          intro id ref' hmap
          by_cases heq : id = guid.connId
          · rw [heq, Function.update_self, Option.some.injEq] at hmap
            exact .inr ⟨heq, hmap.symm⟩
          · rw [Function.update_of_ne heq] at hmap
            exact .inl hmap
        refine h.update ?_ ?_
        · intro id ref' hmap
          refine (hnew id ref' hmap).imp_right ?_
          rintro ⟨rfl, rfl⟩
          exact ⟨guid, hconn, rfl⟩
        · rintro ref' (⟨id, hmap⟩ | hrecord)
          · rcases hnew id ref' hmap with hold | ⟨-, rfl⟩
            · exact .inl (.inl ⟨id, hold⟩)
            · exact .inr ⟨by simp [hconn], hlogic, hnone⟩
          · exact .inl (.inr hrecord)

/-- Behind `OnClientClosed` a module keeps nothing of the connection. -/
theorem onClientClosed (h : TablesOk ctx s tables) (hinv : s.Inv)
    {conn : BaseConn} {ref : ℕ} (hconn : s.connCenter.conns ref = some conn)
    (logic : ℕ) :
    TablesOk ctx s (Function.update tables logic
        ((tables logic).onClientClosed s.connCenter ref)) ∧
      ¬((tables logic).onClientClosed s.connCenter ref).Refers ref := by
  have hclosed : (tables logic).onClientClosed s.connCenter ref =
      { httpConnCtxMap :=
          Function.update (tables logic).httpConnCtxMap conn.connId none
        partMsgMgr := (tables logic).partMsgMgr.removeRecord ref } := by
    simp [LogicTables.onClientClosed, hconn, ConnCenter.getConnById,
      (hinv.rep.filed ref conn hconn).1]
  have hold : ∀ id ref', Function.update (tables logic).httpConnCtxMap
      conn.connId none id = some ref' →
        id ≠ conn.connId ∧ (tables logic).httpConnCtxMap id = some ref' := by
    intro id ref' hmap
    by_cases heq : id = conn.connId
    · simp [heq] at hmap
    · rw [Function.update_of_ne heq] at hmap
      exact ⟨heq, hmap⟩
  rw [hclosed]
  constructor
  · refine h.update (fun id ref' hmap => .inl (hold id ref' hmap).2) ?_
    rintro ref' (⟨id, hmap⟩ | hrecord)
    · exact .inl (.inl ⟨id, (hold id ref' hmap).2⟩)
    · rw [RecordTimeoutMgr.recordExist_removeRecord, Bool.and_eq_true] at hrecord
      exact .inl (.inr hrecord.2)
  · rintro (⟨id, hmap⟩ | hrecord)
    · obtain ⟨hne, hmap⟩ := hold id ref hmap
      obtain ⟨conn', hconn', hid⟩ := h.mapped logic id ref hmap
      rw [hconn, Option.some.injEq] at hconn'
      exact hne (by rw [← hid, hconn'])
    · simp [RecordTimeoutMgr.recordExist_removeRecord] at hrecord

end TablesOk

namespace TablesLeft

variable {ctx : TcpThreadCtx} {s : TcpThread} {tables : ℕ → LogicTables}

theorem tells (h : TablesLeft ctx s tables) (hinv : s.Inv) (logics : TcpLogics)
    {call : LogicCall} {ref left : ℕ} {outer : List LogicLoop}
    (hloops : s.loops = ⟨call, ref, left + 1⟩ :: outer)
    (hle : call = .onClientConnected → left + 1 ≤ ctx.toTell call) :
    TablesOk ctx (s.tellNext ctx)
      (((s.tellNext ctx).log.drop s.log.length).foldl
        (LogicRun.hear logics (s.tellNext ctx).connCenter) tables) := by
  have huses : LogicLoop.uses ⟨call, ref, left + 1⟩ = some ref := by
    simp [LogicLoop.uses]
  obtain ⟨hfree, conn, hconn⟩ := hinv.loop_uses hloops huses
  obtain ⟨hnext, hinv'⟩ := hinv.told ctx hloops
  have hok : TablesOk ctx (s.tellNext ctx) tables := by
    rw [hnext]
    refine ⟨h.mapped, h.recorded, fun logic ref' hrefers => ?_⟩
    obtain ⟨hlogic, hloop⟩ := h.toTablesOk.told logic ref' hrefers
    refine ⟨hlogic, List.forall_mem_cons.mpr ⟨fun hcall heq => ?_, ?_⟩⟩
    · have heq : ref = ref' := heq
      have hleft := h.left ⟨call, ref, left + 1⟩ (by rw [hloops]; rfl) hcall logic
        (heq ▸ hrefers)
      simp only at hleft ⊢
      omega
    · exact fun loop hmem => hloop loop (hloops ▸ List.mem_cons_of_mem _ hmem)
  have hnotes : (s.tellNext ctx).log.drop s.log.length =
      [.told call ref (ctx.toTell call - (left + 1))] := by
    rw [hnext]
    simp
  rw [hnotes, List.foldl_cons, List.foldl_nil]
  cases call with
  | onClientConnected =>
      have hlogic : ctx.toTell .onClientConnected - (left + 1) <
          ctx.toTell .onClientClosed := by
        have hle : left + 1 ≤ ctx.toTell .onClientConnected := hle rfl
        have hsame : ctx.toTell .onClientConnected = ctx.toTell .onClientClosed := rfl
        omega
      refine hok.onClientConnected hinv' hlogic ?_ _
      rw [hnext]
      refine List.forall_mem_cons.mpr ⟨by simp, ?_⟩
      rintro loop hloop hcall rfl
      exact hfree (List.mem_append_left _ (List.mem_filterMap.mpr
        ⟨loop, hloop, by simp [LogicLoop.uses, hcall]⟩))
  | onRecvClientData => exact hok
  | onClientClosed => exact hok

/-- Behind the last module nothing refers to the connection any more. -/
theorem closed (h : TablesLeft ctx s tables) (hinv : s.Inv) (logics : TcpLogics)
    {ref : ℕ} {outer : List LogicLoop}
    (hloops : s.loops = ⟨.onClientClosed, ref, 0⟩ :: outer) :
    TablesOk ctx (s.tellNext ctx)
      (((s.tellNext ctx).log.drop s.log.length).foldl
        (LogicRun.hear logics (s.tellNext ctx).connCenter) tables) := by
  obtain ⟨conn, hconn, hnext, -⟩ := hinv.closed ctx hloops
  have hnotes : (s.tellNext ctx).log.drop s.log.length =
      [.destroyed ref, .decremented ref] := by
    rw [hnext]
    simp
  have hnone : ∀ logic, ¬(tables logic).Refers ref := by
    intro logic hrefers
    have hleft := h.left _ (by rw [hloops]; rfl) rfl logic hrefers
    have hlogic := (h.toTablesOk.told logic ref hrefers).1
    simp only [Nat.add_zero] at hleft
    omega
  rw [hnotes]
  refine h.toTablesOk.of_live ?_ ?_
  · intro logic ref' hrefers
    have hne : ref' ≠ ref := by
      rintro rfl
      exact hnone logic hrefers
    rw [hnext, ConnCenter.dropRecord_eq]
    exact Function.update_of_ne hne _ _
  · intro loop hmem
    rw [hnext] at hmem
    exact hloops ▸ List.mem_cons_of_mem _ hmem

theorem tellNext (h : TablesLeft ctx s tables) (hinv : s.Inv)
    (hgreets : TcpThread.Greets ctx s) (logics : TcpLogics) :
    TablesOk ctx (s.tellNext ctx)
      (((s.tellNext ctx).log.drop s.log.length).foldl
        (LogicRun.hear logics (s.tellNext ctx).connCenter) tables) := by
  cases hloops : s.loops with
  | nil =>
      have hsame : s.tellNext ctx = s := by simp [TcpThread.tellNext, hloops]
      simpa [hsame] using h.toTablesOk
  | cons loop outer =>
      obtain ⟨call, ref, left⟩ := loop
      cases left with
      | succ left =>
          refine h.tells hinv logics hloops ?_
          rintro rfl
          exact (hgreets.greeting _ (hloops ▸ List.mem_cons_self) rfl
            (Nat.succ_pos left)).1
      | zero =>
          by_cases hcall : call = .onClientClosed
          · subst hcall
            exact h.closed hinv logics hloops
          · rw [TcpThread.tellNext_ended hloops hcall]
            simp only [List.drop_length, List.foldl_nil]
            exact h.toTablesOk.of_live (fun _ _ _ => rfl) fun loop hmem =>
              hloops ▸ List.mem_cons_of_mem _ hmem

end TablesLeft

namespace LogicRun

open LabelledRun TcpThread

variable {ctx : TcpThreadCtx} {logics : TcpLogics} {s : LogicRun}

/-- Nothing is closed that is in use, and no accept is of an fd whose connection
is still there. -/
def ClosesNoneInUse (s : LogicRun) : LogicAction → Prop
  | .tcp a => s.thread.ClosesNoneInUse a
  | _ => True

structure Inv (ctx : TcpThreadCtx) (s : LogicRun) : Prop where
  thread : s.thread.Inv
  rounds : RoundsOk ctx s.thread
  greets : Greets ctx s.thread
  tables : TablesOk ctx s.thread s.tables

theorem Inv.init : Inv ctx LogicRun.init :=
  ⟨.init, .init, .init, .init⟩

theorem Inv.leave (h : Inv ctx s) (a : TcpAction) :
    TablesOk ctx s.thread (s.leave ctx a) := by
  unfold LogicRun.leave
  cases hleaves : s.thread.leavesClosed ctx a with
  | none => exact h.tables
  | some left =>
      obtain ⟨logic, ref⟩ := left
      cases hconn : s.thread.connCenter.conns ref with
      | some conn => exact (h.tables.onClientClosed h.thread hconn logic).1
      | none =>
          have hsame : (s.tables logic).onClientClosed s.thread.connCenter ref =
              s.tables logic := by simp [LogicTables.onClientClosed, hconn]
          simp only [hsame, Function.update_eq_self]
          exact h.tables

theorem Inv.leave_returns (h : Inv ctx s) :
    TablesLeft ctx s.thread (s.leave ctx .logicReturns) where
  toTablesOk := h.leave .logicReturns
  left := by
    intro loop hloop hcall logic hrefers
    obtain ⟨call, ref, left⟩ := loop
    obtain rfl : call = .onClientClosed := hcall
    obtain ⟨outer, hloops⟩ : ∃ outer,
        s.thread.loops = ⟨.onClientClosed, ref, left⟩ :: outer :=
      List.head?_eq_some_iff.mp hloop
    have huses : LogicLoop.uses ⟨.onClientClosed, ref, left⟩ = some ref := by
      simp [LogicLoop.uses]
    obtain ⟨-, conn, hconn⟩ := h.thread.loop_uses hloops huses
    have hleave : s.leave ctx .logicReturns =
        Function.update s.tables (ctx.toTell .onClientClosed - (left + 1))
          ((s.tables (ctx.toTell .onClientClosed - (left + 1))).onClientClosed
            s.thread.connCenter ref) := by
      simp [LogicRun.leave, leavesClosed, hloops]
    have htold := ((h.leave .logicReturns).told logic ref hrefers).2
      ⟨.onClientClosed, ref, left⟩ (hloops ▸ List.mem_cons_self) rfl rfl
    have hne : logic ≠ ctx.toTell .onClientClosed - (left + 1) := by
      rintro rfl
      rw [hleave, Function.update_self] at hrefers
      exact (h.tables.onClientClosed h.thread hconn _).2 hrefers
    simp only at htold ⊢
    omega

theorem log_closeConn (s : TcpThread) (ref : ℕ) :
    s.log <+: (s.closeConn ref).log := by
  unfold closeConn
  split
  · exact List.prefix_rfl
  · split
    · exact List.prefix_rfl
    · exact ⟨_, (List.append_assoc _ _ _).symm⟩

theorem log_tellNext (ctx : TcpThreadCtx) (s : TcpThread) :
    s.log <+: (s.tellNext ctx).log := by
  cases hloops : s.loops with
  | nil => simp [tellNext, hloops]
  | cons loop outer =>
      obtain ⟨call, ref, left⟩ := loop
      cases left with
      | zero =>
          cases call with
          | onClientClosed =>
              rw [tellNext_closed hloops]
              exact log_closeConn { s with loops := outer } ref
          | _ => simp [tellNext, hloops]
      | succ left =>
          cases hconn : s.connCenter.conns ref with
          | none => simp [tellNext, hloops, hconn, fail]
          | some conn =>
              rw [tellNext_told ctx hloops hconn]
              exact List.prefix_append _ _

theorem Inv.thread_step (h : Inv ctx s) {s' : LogicRun} {a : TcpAction}
    (hguard : s.thread.ClosesNoneInUse a)
    (hstep : step logics ctx s (.tcp a) = some s') : Inv ctx s' := by
  obtain ⟨t, ht, rfl⟩ := Option.map_eq_some_iff.mp hstep
  have hinv' := h.thread.keep hguard.closesFree ht
  have hrounds' := h.rounds.keep h.thread hguard ht
  have hmoves := h.thread.moves hguard ht
  have hleave := h.leave a
  refine ⟨hinv', hrounds', h.greets.keep h.thread h.rounds hmoves, ?_⟩
  cases hmoves with
  | stays hsame =>
      simp only [hsame.log, List.drop_length, List.foldl_nil]
      exact hleave.of_live (fun _ _ _ => congrFun hsame.conns _) fun loop hloop =>
        hsame.loops ▸ hloop
  | @begins _ s₁ ref call hsame hcall hlive hfree hinv₁ =>
      have htables : TablesOk ctx s₁ (s.leave ctx a) :=
        hleave.of_live (fun _ _ _ => congrFun hsame.conns _) fun loop hloop =>
          hsame.loops ▸ hloop
      have hgreets : Greets ctx s₁ := h.greets.of_same hsame.log hsame.loops
      have htold := (htables.pushLoop call ref).tellNext hinv₁
        (hgreets.pushLoop ref hcall) logics
      have hlog : (s₁.pushLoop ctx call ref).log = s.thread.log := hsame.log
      rw [hlog] at htold
      exact htold
  | @creates _ s₁ conn hidle hlog hloops hconns hnext hinv₁ =>
      have htables : TablesOk ctx s₁ (s.leave ctx a) := by
        refine hleave.of_live (fun logic ref hrefers => ?_) fun loop hloop =>
          hloops ▸ hloop
        have hne : ref ≠ s.thread.connCenter.nextConn := by
          rintro rfl
          have hlive := hleave.refers_live hrefers
          simp [h.thread.rep.unused _ le_rfl] at hlive
        rw [hconns, Function.update_of_ne hne]
      have htold := (htables.pushLoop .onClientConnected _).tellNext hinv₁
        (h.greets.created h.rounds hidle hlog hloops) logics
      obtain ⟨notes, hnotes⟩ := log_tellNext ctx
        (s₁.pushLoop ctx .onClientConnected s.thread.connCenter.nextConn)
      have hpush : (s₁.pushLoop ctx .onClientConnected
          s.thread.connCenter.nextConn).log =
            s.thread.log ++ [.created s.thread.connCenter.nextConn] := hlog
      rw [hpush] at hnotes htold
      rw [← hnotes, List.drop_left] at htold
      have hdrop : (s₁.tellLogics ctx .onClientConnected
          s.thread.connCenter.nextConn).log.drop s.thread.log.length =
            .created s.thread.connCenter.nextConn :: notes := by
        rw [tellLogics, ← hnotes, List.append_assoc, List.drop_left,
          List.singleton_append]
      simp only [hdrop, List.foldl_cons]
      exact htold
  | returns hloops => exact h.leave_returns.tellNext h.thread h.greets logics

theorem Inv.receives (h : Inv ctx s) {logic : ℕ} {conn : BaseConn}
    (hreceiving : s.thread.receiving ctx = some (logic, conn)) :
    s.thread.connCenter.getConnById conn.connId ≠ none ∧
      logic < ctx.toTell .onClientClosed ∧
        ∀ loop ∈ s.thread.loops, loop.call ≠ .onClientClosed := by
  unfold receiving at hreceiving
  split at hreceiving
  · rename_i ref left hloops
    obtain ⟨hleft, hreceiving⟩ := Option.ite_none_right_eq_some.mp hreceiving
    obtain ⟨conn', hconn, heq⟩ := Option.map_eq_some_iff.mp hreceiving
    obtain ⟨rfl, rfl⟩ := Prod.mk.inj heq
    refine ⟨?_, ?_, by simp [hloops]⟩
    · simp [ConnCenter.getConnById, (h.thread.rep.filed ref conn' hconn).1]
    · simp only [TcpThreadCtx.toTell]
      omega
  · cases hreceiving

theorem Inv.keep (h : Inv ctx s) {s' : LogicRun} {a : LogicAction}
    (hguard : s.ClosesNoneInUse a) (hstep : step logics ctx s a = some s') :
    Inv ctx s' := by
  cases a with
  | tcp a => exact h.thread_step hguard hstep
  | recordPartMsg now life =>
      obtain ⟨⟨logic, conn⟩, hreceiving, rfl⟩ := Option.map_eq_some_iff.mp hstep
      obtain ⟨hfound, hlogic, hnone⟩ := h.receives hreceiving
      obtain ⟨ref, href⟩ := Option.ne_none_iff_exists'.mp hfound
      obtain ⟨conn', hconn', -⟩ := h.thread.rep.of_id _ _ href
      refine ⟨h.thread, h.rounds, h.greets, h.tables.update ?_ ?_⟩
      · simp only [LogicTables.recordPartMsg, href]
        exact fun _ _ => .inl
      · simp only [LogicTables.recordPartMsg, href]
        rintro ref' (hmap | hrecord)
        · exact .inl (.inl hmap)
        · rw [RecordTimeoutMgr.recordExist_upsertRecord, Bool.or_eq_true,
            decide_eq_true_eq] at hrecord
          rcases hrecord with rfl | hold
          · exact .inr ⟨by simp [hconn'], hlogic, fun loop hloop hcall =>
              absurd hcall (hnone loop hloop)⟩
          · exact .inl (.inr hold)
  | removeRecord =>
      obtain ⟨⟨logic, conn⟩, hreceiving, rfl⟩ := Option.map_eq_some_iff.mp hstep
      obtain ⟨ref, href⟩ := Option.ne_none_iff_exists'.mp (h.receives hreceiving).1
      refine ⟨h.thread, h.rounds, h.greets, h.tables.update ?_ ?_⟩
      · simp only [LogicTables.removeRecord, href]
        exact fun _ _ => .inl
      · simp only [LogicTables.removeRecord, href]
        rintro ref' (hmap | hrecord)
        · exact .inl (.inl hmap)
        · rw [RecordTimeoutMgr.recordExist_removeRecord, Bool.and_eq_true] at hrecord
          exact .inl (.inr hrecord.2)
  | partMsgTimer logic now =>
      obtain ⟨-, hstep⟩ := Option.ite_none_right_eq_some.mp hstep
      obtain ⟨⟨expired, rest⟩, htake, rfl⟩ := Option.map_eq_some_iff.mp hstep
      refine ⟨h.thread, h.rounds, h.greets, h.tables.update (fun _ _ => .inl) ?_⟩
      rintro ref' (hmap | hrecord)
      · exact .inl (.inl hmap)
      · rw [RecordTimeoutMgr.recordExist_takeExpired htake, Bool.and_eq_true] at hrecord
        exact .inl (.inr hrecord.2)

/-- Each module hears of a connection, then of its end, once each, and only then is
it destroyed; and the tables of the modules refer to live connections. -/
structure Paired (ctx : TcpThreadCtx) (s : LogicRun) : Prop where
  round : ∀ logic < ctx.toTell .onClientClosed, ∀ ref,
    s.thread.pairNotes logic ref <+: pairRound logic ref
  mapped : ∀ logic id ref, (s.tables logic).httpConnCtxMap id = some ref →
    ∃ conn, s.thread.connCenter.conns ref = some conn ∧ conn.connId = id
  recorded : ∀ logic ref, (s.tables logic).partMsgMgr.recordExist ref = true →
    (s.thread.connCenter.conns ref).isSome

theorem Inv.paired (h : Inv ctx s) : Paired ctx s where
  round := fun _ hlogic ref =>
    h.greets.pairNotes_prefix (h.rounds.closedOnce h.thread) hlogic ref
  mapped := h.tables.mapped
  recorded := h.tables.recorded

/-- **Connected and closed come in pairs**, as long as nothing is closed that is in
use and no fd is accepted whose connection is still there. -/
theorem run_paired (logics : TcpLogics) (ctx : TcpThreadCtx)
    (actions : List LogicAction)
    (hguard : Guarded (step logics ctx) ClosesNoneInUse init actions) :
    Along (step logics ctx) (Paired ctx) (fun _ _ _ => True) init actions := by
  have hgood : ∀ s : LogicRun, Inv ctx s → Paired ctx s := fun s h => h.paired
  refine Guarded.along_of_inv hgood ?_ Inv.init hguard
  exact fun s a s' h ha hstep => ⟨h.keep ha hstep, trivial⟩

section Examples

instance ClosesNoneInUse.decidable (s : LogicRun) :
    ∀ a, Decidable (s.ClosesNoneInUse a)
  | .tcp a => inferInstanceAs (Decidable (s.thread.ClosesNoneInUse a))
  | .recordPartMsg _ _ => isTrue trivial
  | .removeRecord => isTrue trivial
  | .partMsgTimer _ _ => isTrue trivial

def oneWeb : TcpLogics := ⟨fun _ => true, fun _ _ => true⟩

def partThenClosed : List LogicAction :=
  [.tcp (.onAccept false 0 ⟨true, true⟩ 0 7), .tcp .logicReturns,
    .tcp (.readCallback false 1 7 true), .recordPartMsg 1 30, .tcp .logicReturns,
    .tcp (.connClosed 7), .tcp .logicReturns]

theorem run_paired_part_then_closed :
    (run (step oneWeb oneLogic) init partThenClosed).map
          (fun t => t.thread.pairNotes 0 0) = some (pairRound 0 0) ∧
      Along (step oneWeb oneLogic) (Paired oneLogic) (fun _ _ _ => True) init
        partThenClosed :=
  ⟨by decide +kernel, run_paired oneWeb oneLogic partThenClosed (by decide +kernel)⟩

/-- The fd is accepted again while its connection is there. -/
def acceptedTwice : List LogicAction :=
  [.tcp (.onAccept false 0 ⟨true, true⟩ 0 7), .tcp .logicReturns,
    .tcp (.onAccept false 0 ⟨true, true⟩ 1 7)]

/-- The old connection is gone, the module has not heard of it, and its entry is
still there. -/
theorem not_paired_accepted_twice :
    (run (step oneWeb oneLogic) init acceptedTwice).map (fun t =>
        (t.thread.pairNotes 0 0, (t.tables 0).httpConnCtxMap 1,
          (t.thread.connCenter.conns 0).isSome)) =
        some ([.told .onClientConnected 0 0, .destroyed 0], some 0, false) ∧
      ¬Along (step oneWeb oneLogic) (Paired oneLogic) (fun _ _ _ => True) init
        acceptedTwice := by
  have hrun : (run (step oneWeb oneLogic) init acceptedTwice).map (fun t =>
      (t.thread.pairNotes 0 0, (t.tables 0).httpConnCtxMap 1,
        (t.thread.connCenter.conns 0).isSome)) =
      some ([.told .onClientConnected 0 0, .destroyed 0], some 0, false) := by
    decide +kernel
  refine ⟨hrun, fun halong => ?_⟩
  obtain ⟨t, ht, hseen⟩ := Option.map_eq_some_iff.mp hrun
  have hround := (halong.last ht).round 0 (by decide) 0
  rw [(Prod.mk.inj hseen).1] at hround
  revert hround
  decide

end Examples

end LogicRun

end CommonComponent
