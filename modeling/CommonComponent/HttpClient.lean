import CommonComponent.HttpReq
import CommonComponent.ProtoTcpClient
import CommonComponent.ProtoTcpClientCenter
import CommonComponent.TransCenterRun

/-!
# The HTTP clients

`http::Client` opens a connection for each request and hands both to libevent.  The
`CallbackArg` of the request leads the callback to the client and the transaction.  A
connection cannot be freed in its own callback, so a timer does that, and the client
goes with the last of its connections.

libevent calls back for each request once, from its loop, and keeps a timer until it is
deleted.  `fault` is a use of an object that is gone, a second free, or the end of a
connection in its own callback.  The connections are those without TLS.
-/

namespace CommonComponent

def sameNoCase (s s' : Bytes) : Bool := s.map toLower = s'.map toLower

/-- `GetParams` or `PostParams`; the former has no data. -/
structure HttpParams where
  uri : Option Bytes
  needEncode : Bool
  headers : Option StringMap
  data : Option Bytes

namespace HttpParams

def body (params : HttpParams) : Bytes := params.data.getD []

def headerList (params : HttpParams) : List (Bytes × Bytes) :=
  match params.headers with
  | none => []
  | some headers => headers.toList

end HttpParams

inductive EvhttpCmdType
  | get
  | post
deriving DecidableEq

def AsyncCtx.transCtx (asyncCtx : AsyncCtx) (peer : Peer) : TransCtx :=
  ⟨peer, asyncCtx.timeoutSec, 0, asyncCtx.sink, asyncCtx.data⟩

/-- A request with the address of its connection. -/
structure EvhttpReq where
  addr : String
  port : UInt16
  cmdType : EvhttpCmdType
  uri : Bytes
  headers : List (Bytes × Bytes)
  body : Bytes

/-- `evhttp_uriencode`, and the headers that `evhttp_add_header` takes. -/
structure EvhttpEnv where
  uriencode : Bytes → Bytes
  headerOk : Bytes → Bytes → Bool

namespace EvhttpEnv

variable (env : EvhttpEnv)

def addHeader (headers : List (Bytes × Bytes)) (key value : Bytes) :
    List (Bytes × Bytes) :=
  if env.headerOk key value then headers ++ [(key, value)] else headers

/-- The headers of the caller, but for the host. -/
def copyHeaders (headers : List (Bytes × Bytes)) : List (Bytes × Bytes) :=
  headers.foldl (fun copied header =>
    if sameNoCase (cStr header.1) (ascii "host") then copied
    else env.addHeader copied (cStr header.1) (cStr header.2)) []

end EvhttpEnv

def findHeader (headers : List (Bytes × Bytes)) (key : Bytes) : Bool :=
  headers.any fun header => sameNoCase header.1 key

/-- `evhttp_remove_header` takes the first one. -/
def removeHeader (headers : List (Bytes × Bytes)) (key : Bytes) : List (Bytes × Bytes) :=
  headers.eraseP fun header => sameNoCase header.1 key

def Peer.host (peer : Peer) : Bytes := ascii (peer.addr ++ ":" ++ toString peer.port)

namespace EvhttpEnv

variable (env : EvhttpEnv)

def outputHeaders (peer : Peer) (params : HttpParams) : List (Bytes × Bytes) :=
  let headers := env.addHeader (env.copyHeaders params.headerList) (ascii "Host") peer.host
  if params.body = [] then headers
  else
    let headers :=
      if findHeader headers (ascii "Content-Type") then headers
      else
        env.addHeader headers (ascii "Content-Type")
          (ascii "application/x-www-form-urlencoded")
    env.addHeader (removeHeader headers (ascii "Content-Length")) (ascii "Content-Length")
      (ascii (toString params.body.length))

/-- A request without a body is a GET, whichever call it comes from. -/
def evhttpReq (peer : Peer) (params : HttpParams) (uri : Bytes) : EvhttpReq where
  addr := peer.addr
  port := peer.port
  cmdType := if params.body = [] then .get else .post
  uri := if params.needEncode then env.uriencode uri else uri
  headers := env.outputHeaders peer params
  body := params.body

end EvhttpEnv

/-- What the pointer `cleanup_event` points to. -/
inductive CleanupEvent
  | null
  | live
  | freed
deriving DecidableEq

structure CallbackArg where
  httpClient : ℕ
  transId : TransID
  cleanupEvent : CleanupEvent

/-- `evhttp_make_request`.  Where it fails, it may have freed the request. -/
inductive MakeRequest
  | made
  | refused
  | freed

/-- Which calls of `HTTPGet` or `HTTPPost` succeed. -/
structure HttpReqEnv where
  client : CreateClientEnv
  argCreated : Bool
  connMade : Bool
  uriEncoded : Bool
  reqMade : Bool
  bodyAdded : Bool
  makeRequest : MakeRequest

/-- The calls of `DoHTTPReq` up to `evhttp_make_request`. -/
def HttpReqEnv.ready (calls : HttpReqEnv) (params : HttpParams) : Bool :=
  calls.connMade && (!params.needEncode || calls.uriEncoded) && calls.reqMade &&
    (params.body = [] || calls.bodyAdded)

/-- The clients of a thread with its transactions.  `requests` and `cleanups` are what
libevent keeps, each with its `CallbackArg`; `doneArg` is that of the
`HTTPReqDoneCallback` the loop is in.  `released` has the `CallbackArg`s that were
freed, and `httpTrans` the ids that `Get` and `Post` have returned. -/
structure HttpClients where
  trans : TransState
  center : ClientCenter Peer
  callbackArgSet : ℕ → Finset ℕ
  args : ℕ → Option CallbackArg
  nextArg : ℕ
  released : List ℕ
  requests : ℕ → Option EvhttpReq
  cleanups : Finset ℕ
  doneArg : Option ℕ
  httpTrans : Finset TransID
  fault : Bool

/-- `reqDone` is `HTTPReqDoneCallback` up to the sink, `scheduleCleanup` the rest. -/
inductive HttpAction
  | trans (a : TransAction)
  | httpReq (peer : Peer) (now : ℤ) (params : HttpParams) (asyncCtx : AsyncCtx)
      (calls : HttpReqEnv)
  | reqDone (ref : ℕ) (done : HttpDone)
  | scheduleCleanup (eventNew eventAdd : Bool)
  | connClosed (ref : ℕ)
  | connCleanup (ref : ℕ)

namespace HttpClients

def init : HttpClients where
  trans := .start
  center := .init
  callbackArgSet := fun _ => ∅
  args := fun _ => none
  nextArg := 0
  released := []
  requests := fun _ => none
  cleanups := ∅
  doneArg := none
  httpTrans := ∅
  fault := false

def faulty (s : HttpClients) : HttpClients := { s with fault := true }

/-- `CallbackArg::Release`.  The end of the connection is told to the client. -/
def release (s : HttpClients) (ref : ℕ) : HttpClients :=
  match s.args ref with
  | none => s.faulty
  | some arg =>
      if arg.cleanupEvent = .freed ∨ s.center.clients arg.httpClient = none ∨
          s.doneArg = some ref then s.faulty
      else
        { s with
          args := Function.update s.args ref none
          released := s.released ++ [ref]
          cleanups := s.cleanups.erase ref }

def eraseArg (s : HttpClients) (client ref : ℕ) : HttpClients :=
  { s with
    callbackArgSet :=
      Function.update s.callbackArgSet client ((s.callbackArgSet client).erase ref) }

variable (env : EvhttpEnv)

def doHTTPReq (s : HttpClients) (client : ℕ) (peer : Peer) (transId : TransID)
    (params : HttpParams) (calls : HttpReqEnv) : Bool × HttpClients :=
  match params.uri with
  | none => (false, s)
  | some uri =>
      if !calls.argCreated then (false, s)
      else
        let ref := s.nextArg
        let s :=
          { s with
            args := Function.update s.args ref (some ⟨client, transId, .null⟩)
            nextArg := ref + 1 }
        if !calls.ready params then (false, s.release ref)
        else
          match calls.makeRequest with
          | .made =>
              (true, { s with
                requests := Function.update s.requests ref
                  (some (env.evhttpReq peer params uri))
                callbackArgSet := Function.update s.callbackArgSet client
                  (insert ref (s.callbackArgSet client)) })
          | .refused => (false, s.release ref)
          -- `err_out` frees it again
          | .freed => (false, s.faulty)

/-- `Client::Get` and `Client::Post`. -/
def sendReq (s : HttpClients) (client : ℕ) (peer : Peer) (now : ℤ) (params : HttpParams)
    (asyncCtx : AsyncCtx) (calls : HttpReqEnv) : HttpClients :=
  let ctx := asyncCtx.transCtx peer
  let transId := (s.trans.tc.recordTransCtx now ctx).1
  let s :=
    { s with
      trans := s.trans.recorded now ctx
      httpTrans := s.httpTrans.erase transId }
  if transId = invalidTransID then s
  else
    match s.doHTTPReq env client peer transId params calls with
    | (true, s) => { s with httpTrans := insert transId s.httpTrans }
    | (false, s) => { s with trans := s.trans.cancelled transId }

/-- `Scheduler::HTTPGet` and `Scheduler::HTTPPost`. -/
def httpReq (s : HttpClients) (peer : Peer) (now : ℤ) (params : HttpParams)
    (asyncCtx : AsyncCtx) (calls : HttpReqEnv) : HttpClients :=
  match s.center.getClient peer with
  | some client => s.sendReq env client peer now params asyncCtx calls
  | none =>
      match s.center.createClient calls.client peer with
      | none => s.faulty
      | some (center, none) => { s with center := center }
      | some (center, some client) =>
          { s with center := center }.sendReq env client peer now params asyncCtx calls

/-- The rest of `HTTPReqDoneCallback`. -/
def scheduleCleanup (s : HttpClients) (ref : ℕ) (eventNew eventAdd : Bool) : HttpClients :=
  match s.args ref with
  | none => s.faulty
  | some arg =>
      if s.center.clients arg.httpClient = none then s.faulty
      else if !eventNew then (s.eraseArg arg.httpClient ref).release ref
      else if !eventAdd then
        -- the pointer keeps the event that is freed here
        ({ s with
          args := Function.update s.args ref
            (some { arg with cleanupEvent := .freed }) }.eraseArg arg.httpClient ref).release
          ref
      else
        { s with
          args := Function.update s.args ref (some { arg with cleanupEvent := .live })
          cleanups := insert ref s.cleanups
          doneArg := none }

/-- `OnConnCleanupEvent` behind the release. -/
def removeIdle (s : HttpClients) (client : ℕ) : HttpClients :=
  if s.callbackArgSet client = ∅ then
    match (s.center.clients client).bind s.center.removeClient with
    | none => s.faulty
    | some center => { s with center := center }
  else s

def connCleanup (s : HttpClients) (ref : ℕ) : HttpClients :=
  match s.args ref with
  | none => s.faulty
  | some arg => ((s.eraseArg arg.httpClient ref).release ref).removeIdle arg.httpClient

/-- The calls of the HTTP clients on the transactions have actions of their own. -/
def ofTrans : TransAction → Bool
  | .httpReqDone .. => false
  | _ => true

def ofLoop : TransAction → Bool
  | .onRecvRsp .. => true
  | .onTimer .. => true
  | _ => false

/-- An id that somebody else gets is no longer one of an HTTP client. -/
def httpTransAfter (s : HttpClients) : TransAction → Finset TransID
  | .record now ctx => s.httpTrans.erase (s.trans.tc.recordTransCtx now ctx).1
  | _ => s.httpTrans

/-- Behind a fault there is nothing. -/
def step (s : HttpClients) (a : HttpAction) : Option HttpClients :=
  if s.fault then none
  else
    match a with
    | .trans a =>
        if ofTrans a && (!ofLoop a || s.doneArg.isNone) then
          (s.trans.step a).map fun trans =>
            { s with trans := trans, httpTrans := s.httpTransAfter a }
        else none
    | .httpReq peer now params asyncCtx calls =>
        some (s.httpReq env peer now params asyncCtx calls)
    | .reqDone ref done =>
        if (s.requests ref).isSome && s.doneArg.isNone then
          match s.args ref with
          | none => some s.faulty
          | some arg =>
              if s.center.clients arg.httpClient = none then some s.faulty
              else
                (s.trans.step (.httpReqDone arg.transId done)).map fun trans =>
                  { s with
                    trans := trans
                    requests := Function.update s.requests ref none
                    doneArg := some ref }
        else none
    | .scheduleCleanup eventNew eventAdd =>
        if s.trans.control = .idle then
          s.doneArg.map fun ref => s.scheduleCleanup ref eventNew eventAdd
        else none
    | .connClosed ref =>
        (s.args ref).map fun arg =>
          if s.center.clients arg.httpClient = none then s.faulty else s
    | .connCleanup ref =>
        if ref ∈ s.cleanups && s.doneArg.isNone && s.trans.control = .idle then
          some (s.connCleanup ref)
        else none

end HttpClients

end CommonComponent
