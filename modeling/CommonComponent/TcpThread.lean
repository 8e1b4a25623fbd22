import CommonComponent.ConnCenter
import CommonComponent.LabelledRun
import Mathlib.Tactic

/-!
# Runs of a connection thread

The event loop accepts, reads, finds connections closed and checks for idle ones;
each of these calls the logic modules in turn.  A module may send to and close
connections before it returns, so a run has every return as an action of its own
and keeps the calls under way on a stack.  `OnTimer` of the timeout manager takes
its batch first and then closes the connections of the batch one by one.
-/

namespace CommonComponent

/-- What a connection thread is configured with. -/
structure TcpThreadCtx where
  commonLogic : Bool
  logicItems : ℕ
  connCenterCtx : ConnCenterCtx

inductive LogicCall
  | onClientConnected
  | onRecvClientData
  | onClientClosed
deriving DecidableEq

/-- How many modules get the call; received data does not go to the common one. -/
def TcpThreadCtx.toTell (ctx : TcpThreadCtx) : LogicCall → ℕ
  | .onRecvClientData => ctx.logicItems
  | .onClientConnected => ctx.logicItems + ctx.commonLogic.toNat
  | .onClientClosed => ctx.logicItems + ctx.commonLogic.toNat

/-- A loop over the modules: one of them is being called, `left` come after it. -/
structure LogicLoop where
  call : LogicCall
  conn : ℕ
  left : ℕ

/-- The connection that a loop is still to pass on or to destroy. -/
def LogicLoop.uses (loop : LogicLoop) : Option ℕ :=
  if loop.call = .onClientClosed ∨ 0 < loop.left then some loop.conn else none

inductive ConnNote
  | created (conn : ℕ)
  | told (call : LogicCall) (conn logic : ℕ)
  | destroyed (conn : ℕ)
  | decremented (conn : ℕ)
deriving DecidableEq

/-- The loops under way, the innermost first; the part of the timeout batch that
is still to be closed, while `OnTimer` runs; and what has happened, oldest first.
`fault` says that a destroyed connection object was used. -/
structure TcpThread where
  connCenter : ConnCenter
  onlineTcpConnCount : ℤ
  loops : List LogicLoop
  timeoutRecords : Option (List (TimeoutRecord ℤ ℕ))
  log : List ConnNote
  fault : Bool

inductive TcpAction
  | onAccept (stopping : Bool) (connCountLimit : ℤ) (env : CreateConnEnv)
      (now sockFd : ℤ)
  | readCallback (stopping : Bool) (now sockFd : ℤ) (hasData : Bool)
  | readMore (sockFd : ℤ)
  | connClosed (sockFd : ℤ)
  | sendToClient (now connId : ℤ) (added : Bool)
  | closeClient (connId : ℤ)
  | onTimer (now : ℤ) (order : BatchOrder ℤ ℕ)
  | nextTimeout
  | logicReturns

namespace TcpThread

def init : TcpThread where
  connCenter := .empty
  onlineTcpConnCount := 0
  loops := []
  timeoutRecords := none
  log := []
  fault := false

def fail (s : TcpThread) : TcpThread := { s with fault := true }

/-- `DestroyConn(conn->GetSockFD())` and `--online_tcp_conn_count_`. -/
def closeConn (s : TcpThread) (ref : ℕ) : TcpThread :=
  match s.connCenter.conns ref with
  | none => s.fail
  | some conn =>
      match s.connCenter.destroyConn conn.sockFd with
      | none => s.fail
      | some (connCenter, gone) =>
          { s with
            connCenter := connCenter
            onlineTcpConnCount := s.onlineTcpConnCount - 1
            log := s.log ++ gone.toList.map .destroyed ++ [.decremented ref] }

/-- The innermost loop goes on to its next module, or ends. -/
def tellNext (ctx : TcpThreadCtx) (s : TcpThread) : TcpThread :=
  match s.loops with
  | [] => s
  | loop :: outer =>
      match loop.left with
      | 0 =>
          match loop.call with
          | .onClientClosed => closeConn { s with loops := outer } loop.conn
          | _ => { s with loops := outer }
      | left + 1 =>
          match s.connCenter.conns loop.conn with
          | none => s.fail
          | some _ =>
              { s with
                loops := { loop with left := left } :: outer
                log := s.log ++
                  [.told loop.call loop.conn (ctx.toTell loop.call - (left + 1))] }

def pushLoop (ctx : TcpThreadCtx) (s : TcpThread) (call : LogicCall)
    (ref : ℕ) : TcpThread :=
  { s with loops := ⟨call, ref, ctx.toTell call⟩ :: s.loops }

def tellLogics (ctx : TcpThreadCtx) (s : TcpThread) (call : LogicCall)
    (ref : ℕ) : TcpThread :=
  (s.pushLoop ctx call ref).tellNext ctx

def onClientClosed (ctx : TcpThreadCtx) (s : TcpThread) (ref : ℕ) : TcpThread :=
  s.tellLogics ctx .onClientClosed ref

/-- `OnClientConnected` behind its test for a connection of the same fd. -/
def createConn (ctx : TcpThreadCtx) (s : TcpThread) (env : CreateConnEnv)
    (now sockFd : ℤ) : TcpThread :=
  match s.connCenter.createConn ctx.connCenterCtx env now sockFd with
  | (connCenter, none) => { s with connCenter := connCenter }
  | (connCenter, some ref) =>
      ({ s with
          connCenter := connCenter
          onlineTcpConnCount := s.onlineTcpConnCount + 1
          log := s.log ++ [.created ref] } : TcpThread).tellLogics ctx
        .onClientConnected ref

def onClientConnected (ctx : TcpThreadCtx) (s : TcpThread) (env : CreateConnEnv)
    (now sockFd : ℤ) : TcpThread :=
  match s.connCenter.getConnBySockFd sockFd with
  | none => s.createConn ctx env now sockFd
  | some ref =>
      let closed := s.closeConn ref
      if closed.fault then closed else closed.createConn ctx env now sockFd

def onAccept (ctx : TcpThreadCtx) (s : TcpThread) (stopping : Bool)
    (connCountLimit : ℤ) (env : CreateConnEnv) (now sockFd : ℤ) : TcpThread :=
  if stopping then s
  else if 0 < connCountLimit ∧ connCountLimit ≤ s.onlineTcpConnCount then s
  else s.onClientConnected ctx env now sockFd

def readCallback (ctx : TcpThreadCtx) (s : TcpThread) (stopping : Bool)
    (now sockFd : ℤ) (hasData : Bool) : TcpThread :=
  if stopping then s
  else
    match s.connCenter.getConnBySockFd sockFd with
    | none => s
    | some ref =>
        match s.connCenter.conns ref with
        | none => s.fail
        | some conn =>
            match s.connCenter.updateConnStatus ctx.connCenterCtx now
                conn.connId true with
            | none => s.fail
            | some (connCenter, false) =>
                onClientClosed ctx { s with connCenter := connCenter } ref
            | some (connCenter, true) =>
                if hasData then
                  tellLogics ctx { s with connCenter := connCenter }
                    .onRecvClientData ref
                else { s with connCenter := connCenter }

/-- `Scheduler::SendToClient` on the thread of the connection; `added` says
whether the data went into the output buffer.  The write event of a `NormalConn`
updates the status of its connection in the same way. -/
def sendToClient (ctx : TcpThreadCtx) (s : TcpThread) (now connId : ℤ)
    (added : Bool) : TcpThread :=
  match s.connCenter.getConnById connId with
  | none => s
  | some ref =>
      if !added then s
      else
        match s.connCenter.conns ref with
        | none => s.fail
        | some conn =>
            match s.connCenter.getConnBySockFd conn.sockFd with
            | none => s
            | some _ =>
                match s.connCenter.updateConnStatus ctx.connCenterCtx now
                    conn.connId false with
                | none => s.fail
                | some (connCenter, _) => { s with connCenter := connCenter }

def closeClient (ctx : TcpThreadCtx) (s : TcpThread) (connId : ℤ) : TcpThread :=
  match s.connCenter.getConnById connId with
  | none => s
  | some ref => s.onClientClosed ctx ref

/-- The event loop has called nothing. -/
def idle (s : TcpThread) : Bool := s.loops.isEmpty && s.timeoutRecords.isNone

/-- Code of the logic can run: in a call, or in an event of its own. -/
def inLogic (s : TcpThread) : Bool :=
  !s.loops.isEmpty || s.timeoutRecords.isNone

def step (ctx : TcpThreadCtx) (s : TcpThread) (a : TcpAction) :
    Option TcpThread :=
  if s.fault then none
  else
    match a with
    | .onAccept stopping connCountLimit env now sockFd =>
        if s.idle then
          some (s.onAccept ctx stopping connCountLimit env now sockFd)
        else none
    | .readCallback stopping now sockFd hasData =>
        if s.idle then some (s.readCallback ctx stopping now sockFd hasData)
        else none
    | .readMore sockFd =>
        if s.idle then
          some (match s.connCenter.getConnBySockFd sockFd with
            | none => s
            | some ref => s.tellLogics ctx .onRecvClientData ref)
        else none
    | .connClosed sockFd =>
        if s.idle then
          some (match s.connCenter.getConnBySockFd sockFd with
            | none => s
            | some ref => s.onClientClosed ctx ref)
        else none
    | .sendToClient now connId added =>
        if s.inLogic then some (s.sendToClient ctx now connId added) else none
    | .closeClient connId =>
        if s.inLogic then some (s.closeClient ctx connId) else none
    | .onTimer now order =>
        if s.idle then
          (s.connCenter.recordMgr.takeExpired now).map fun (expired, rest) =>
            { s with
              connCenter := { s.connCenter with recordMgr := rest }
              timeoutRecords := some (order.arrange expired) }
        else none
    | .nextTimeout =>
        match s.loops, s.timeoutRecords with
        | [], some (t :: rest) =>
            some (onClientClosed ctx { s with timeoutRecords := some rest } t.v)
        | [], some [] => some { s with timeoutRecords := none }
        | _, _ => none
    | .logicReturns =>
        match s.loops with
        | [] => none
        | _ :: _ => some (s.tellNext ctx)

end TcpThread

end CommonComponent
