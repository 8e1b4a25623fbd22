import CommonComponent.HttpParserStream
import CommonComponent.LabelledRun
import CommonComponent.WsParser
import Mathlib.Tactic

/-!
# The records of unfinished messages

`WebLogic` keeps a record in `part_msg_mgr_` for a connection from which a message has
come in part, and closes the connection when the record is too old.  Most callbacks of
both parsers put it in; `OnHTTPReq` and `OnWSMsg` take it out.

`WebThread` is what a web thread keeps for its connections.  With each connection goes
what has come of it: whether the library is inside a request, and whether a WebSocket
message is unfinished.  The law is that there is a record exactly for the connections
with something unfinished.  It is kept as long as a chunk does not go on behind the
message that ends in it, no control frame comes between the fragments of a message, and
an upgrade is not the last thing that came.
-/

namespace CommonComponent

open LabelledRun

/-! ## What is unfinished -/

/-- Whether the library is inside a request behind a call, which it makes only where it
belongs. -/
def HttpEvent.pending : Bool → HttpEvent → Option Bool
  | false, .messageBegin => some true
  | true, .messageBegin => none
  | true, .messageComplete => some false
  | true, _ => some true
  | false, _ => none

def httpPending (pending : Bool) (events : List HttpEvent) : Option Bool :=
  events.foldlM HttpEvent.pending pending

/-- Whether a message is unfinished behind a frame: a control frame does not finish the
message it comes in between. -/
def WsFlags.unfinished (flags : WsFlags) (unfinished : Bool) : Bool :=
  if flags.fin then decide (8 ≤ flags.opcode) && unfinished else true

/-- The flags of the frame in hand, and whether a message is unfinished. -/
def wsPending : WsFlags → Bool → List WsReport → WsFlags × Bool
  | flags, unfinished, [] => (flags, unfinished)
  | _, unfinished, .frameHeader flags _ _ :: rest => wsPending flags unfinished rest
  | flags, unfinished, .frameBody .. :: rest => wsPending flags unfinished rest
  | flags, unfinished, .frameEnd :: rest => wsPending flags (flags.unfinished unfinished) rest

/-- Whether the last frame to matter in these calls is one that is still coming or not
final, or a final one that has ended; without a header, a body or the end of a final
frame there is none. -/
def lastFrame : WsFlags → List WsReport → Option Bool
  | _, [] => none
  | _, .frameHeader flags _ _ :: rest => (lastFrame flags rest).or (some true)
  | flags, .frameBody .. :: rest => (lastFrame flags rest).or (some true)
  | flags, .frameEnd :: rest =>
      (lastFrame flags rest).or (if flags.fin then some false else none)

/-! ## The records -/

def WsNote.record (record : Bool) : WsNote → Bool
  | .recordPartMsg => true
  | .removeRecord => false
  | _ => record

/-- `HTTPConnCtx`, and what has come of the connection. -/
structure WebConn where
  httpParser : HttpParser
  upgraded : Bool
  frameParser : WebsocketParser
  wsParser : WsParser
  inRequest : Bool
  frame : WsFlags
  unfinished : Bool

/-- The contexts of the connections, and which of them have a record. -/
structure WebThread where
  bodyCallback : BodyCallback
  conns : ℕ → Option WebConn
  records : ℕ → Bool

/-- Data come with what the library makes of them, whether the handshake can be sent,
and the connections that the handlers close. -/
inductive WebAction
  | connected (conn : ℕ)
  | closeClient (conn : ℕ)
  | recv (conn : ℕ) (chunk : HttpChunk) (data : Bytes) (sent : Bool) (closes : List ℕ)

namespace WebConn

def init : WebConn where
  httpParser := .init
  upgraded := false
  frameParser := .init
  wsParser := .init
  inRequest := false
  frame := ⟨0, false, false⟩
  unfinished := false

/-- Something of the connection is unfinished: a request, a frame or a message. -/
def pending (c : WebConn) : Bool :=
  c.inRequest || c.unfinished || decide (c.frameParser.state ≠ .start)

/-- `ws::Parser::Execute`. -/
def wsExecute (c : WebConn) (data : Bytes) : WebConn :=
  let (frameParser, reports) := c.frameParser.execute data
  { c with
    frameParser := frameParser
    wsParser := (c.wsParser.handleAll reports).1
    frame := (wsPending c.frame c.unfinished reports).1
    unfinished := (wsPending c.frame c.unfinished reports).2 }

/-- What becomes of the record on the way. -/
def wsRecord (c : WebConn) (record : Bool) (data : Bytes) : Bool :=
  (c.wsParser.handleAll (c.frameParser.execute data).2).2.foldl WsNote.record record

end WebConn

/-- `CheckUpgrade`. -/
def Req.checkUpgrade (r : Req) : Bool :=
  let is := fun name values => r.headers[ascii name]?.any (values.map ascii).contains
  is "Upgrade" ["websocket", "WebSocket", "Websocket"] &&
    is "Connection" ["Upgrade", "upgrade"] && is "Sec-WebSocket-Version" ["13"] &&
    r.headers[ascii "Sec-WebSocket-Key"]?.isSome

namespace WebThread

def init : WebThread where
  bodyCallback := .onBody
  conns := fun _ => none
  records := fun _ => false

/-- `OnClientClosed`. -/
def closeClient (s : WebThread) (conn : ℕ) : WebThread :=
  { s with
    conns := Function.update s.conns conn none
    records := Function.update s.records conn false }

def set (s : WebThread) (conn : ℕ) (c : WebConn) (record : Bool) : WebThread :=
  { s with
    conns := Function.update s.conns conn (some c)
    records := Function.update s.records conn record }

/-- The parser of a connection that is not upgraded, with the record it has. -/
def httpParse (s : WebThread) (conn : ℕ) (c : WebConn) : HttpParse :=
  ⟨c.httpParser, s.bodyCallback, s.records conn⟩

/-- What follows `Execute`; behind an upgrade that is `OnUpgrade`. -/
def handedOn (s : WebThread) (conn : ℕ) (c : WebConn) (t : HttpParse)
    (outcome : HttpOutcome) (rest : Bytes) (sent : Bool) : WebThread :=
  let shared := { s with bodyCallback := t.bodyCallback }
  let c' := { c with httpParser := t.parser }
  match outcome with
  | .upgrade req =>
      if req.checkUpgrade && sent then
        let upgraded := { c' with upgraded := true }
        shared.set conn (upgraded.wsExecute rest) (upgraded.wsRecord t.record rest)
      else shared.closeClient conn
  | _ => shared.set conn c' t.record

/-- `http::Parser::Execute`.  The library makes its calls only where they belong, does
not accept a chunk in which a callback refuses, and makes none behind that. -/
def httpExecute (env : HttpEnv) (s : WebThread) (conn : ℕ) (c : WebConn)
    (chunk : HttpChunk) (sent : Bool) (closes : List ℕ) : Option WebThread :=
  ((s.httpParse conn c).execute env (conn ∈ closes) chunk).bind fun (t, outcome) =>
    (httpPending c.inRequest chunk.events).bind fun pending =>
      if (t.parser.failed = true ∧ chunk.accepted = true) ∨
          (c.httpParser.failed = true ∧ chunk.events ≠ []) then none
      else
        some (s.handedOn conn { c with inRequest := pending } t outcome chunk.rest sent)

/-- `OnRecvClientData`, before the handlers' closes. -/
def recv (env : HttpEnv) (s : WebThread) (conn : ℕ) (chunk : HttpChunk) (data : Bytes)
    (sent : Bool) (closes : List ℕ) : Option WebThread :=
  match s.conns conn with
  | none => some s
  | some c =>
      if c.upgraded then
        some (s.set conn (c.wsExecute data) (c.wsRecord (s.records conn) data))
      else s.httpExecute env conn c chunk sent closes

def step (env : HttpEnv) (s : WebThread) : WebAction → Option WebThread
  | .connected conn =>
      if s.conns conn = none then
        some { s with conns := Function.update s.conns conn (some .init) }
      else none
  | .closeClient conn => some (s.closeClient conn)
  | .recv conn chunk data sent closes =>
      (s.recv env conn chunk data sent closes).map fun s => closes.foldl closeClient s

def pending (s : WebThread) (conn : ℕ) : Bool := (s.conns conn).any (·.pending)

/-- There is a record exactly for the connections with something unfinished. -/
def RecordLaw (s : WebThread) : Prop := ∀ conn, s.records conn = s.pending conn

end WebThread

/-! ## Requests -/

theorem httpPending_cons (pending : Bool) (event : HttpEvent) (rest : List HttpEvent) :
    httpPending pending (event :: rest) =
      (event.pending pending).bind fun pending => httpPending pending rest :=
  List.foldlM_cons

theorem HttpEvent.pending_of_ne {pending pending' : Bool} {event : HttpEvent}
    (h : event.pending pending = some pending') (hne : event ≠ .messageComplete) :
    pending' = true := by
  cases event with
  | messageComplete => exact absurd rfl hne
  | _ =>
      cases pending <;> cases h
      rfl

theorem httpPending_of_not_mem {pending pending' : Bool} {events : List HttpEvent}
    (h : httpPending pending events = some pending') (hmem : .messageComplete ∉ events) :
    pending' = (pending || decide (events ≠ [])) := by
  induction events generalizing pending with
  | nil =>
      cases h
      simp
  | cons event rest ih =>
      rw [List.mem_cons, not_or] at hmem
      rw [httpPending_cons] at h
      obtain ⟨mid, hmid, hrest⟩ := Option.bind_eq_some_iff.mp h
      have hinside : mid = true := HttpEvent.pending_of_ne hmid (Ne.symm hmem.1)
      rw [ih hrest hmem.2, hinside]
      simp

namespace HttpParse

theorem feed_record_of_record {env : HttpEnv} {s t : HttpParse} {events : List HttpEvent}
    (h : s.feed env events = some t) (hs : s.record = true) : t.record = true := by
  apply feed_keeps _ hs h
  intro event _ s t hs hcall
  exact (callback_called hcall).record hs

theorem feed_record {env : HttpEnv} {s t : HttpParse} {events : List HttpEvent}
    (h : s.feed env events = some t) (hfailed : s.parser.failed = false)
    {pending : Bool} (hpending : httpPending s.record events = some pending)
    (hne : events ≠ []) : t.record = true := by
  cases events with
  | nil => exact absurd rfl hne
  | cons event rest =>
      obtain ⟨mid, hmid, hrest⟩ := feed_cons_eq_some h
      apply feed_record_of_record hrest
      cases hrecord : s.record with
      | true => exact (callback_called hmid).record hrecord
      | false =>
          rw [httpPending_cons, hrecord] at hpending
          cases event with
          | messageBegin =>
              simp only [callback, hfailed, Bool.false_eq_true, if_false,
                Option.some.injEq] at hmid
              rw [← hmid]
              rfl
          | _ => cases hpending

theorem feed_complete_of_not_mem {env : HttpEnv} {s t : HttpParse}
    {events : List HttpEvent} (h : s.feed env events = some t)
    (hmem : .messageComplete ∉ events) : t.parser.complete = s.parser.complete := by
  apply feed_keeps (P := fun mid => mid.parser.complete = s.parser.complete) _ rfl h
  intro event hevent mid mid' hmid hcall
  have hne : event ≠ .messageComplete := fun heq => hmem (heq ▸ hevent)
  exact ((callback_called hcall).complete hne).trans hmid

end HttpParse

/-! ## Frames -/

namespace WsParser

theorem foldl_record_onWSMsg (opcode : ℕ) (data : Bytes) (record : Bool) :
    (onWSMsg opcode data).foldl WsNote.record record = false := by
  unfold onWSMsg
  split_ifs <;> rfl

theorem foldl_record_onFrameEnd (p : WsParser) (record : Bool) :
    p.onFrameEnd.2.foldl WsNote.record record = if p.fin then false else record := by
  unfold onFrameEnd
  split_ifs
  · rw [List.foldl_append, foldl_record_onWSMsg]
  · rw [List.foldl_append, foldl_record_onWSMsg]
  · rfl

theorem onFrameEnd_fin (p : WsParser) : p.onFrameEnd.1.fin = p.fin := by
  unfold onFrameEnd
  split_ifs <;> rfl

/-- The record behind the calls is that of the last frame to matter. -/
theorem foldl_record_handleAll {p : WsParser} {flags : WsFlags} (hfin : p.fin = flags.fin)
    (reports : List WsReport) (record : Bool) :
    (p.handleAll reports).2.foldl WsNote.record record =
      (lastFrame flags reports).getD record := by
  induction reports generalizing p flags record with
  | nil => rfl
  | cons report rest ih =>
      have hsplit : (p.handleAll (report :: rest)).2 =
          (p.handle report).2 ++ ((p.handle report).1.handleAll rest).2 := rfl
      rw [hsplit, List.foldl_append]
      cases report with
      | frameHeader flags' mask length =>
          have hfin' : (p.handle (.frameHeader flags' mask length)).1.fin = flags'.fin :=
            rfl
          rw [ih hfin']
          cases hlast : lastFrame flags' rest <;> simp [lastFrame, hlast, handle,
            onFrameHeader, WsNote.record]
      | frameBody flags' mask offset data =>
          have hfin' : (p.onFrameBody flags' mask offset data).1.fin = flags.fin := by
            rw [onFrameBody_eq]
            exact hfin
          rw [handle, ih hfin', onFrameBody_eq]
          cases hlast : lastFrame flags rest <;> simp [lastFrame, hlast, WsNote.record]
      | frameEnd =>
          have hfin' : p.onFrameEnd.1.fin = flags.fin := (onFrameEnd_fin p).trans hfin
          rw [handle, ih hfin', foldl_record_onFrameEnd, hfin]
          cases hlast : lastFrame flags rest with
          | none => cases hflag : flags.fin <;> simp [lastFrame, hlast, hflag]
          | some last => simp [lastFrame, hlast]

theorem handleAll_fin {p : WsParser} {flags : WsFlags} (hfin : p.fin = flags.fin)
    (unfinished : Bool) (reports : List WsReport) :
    (p.handleAll reports).1.fin = (wsPending flags unfinished reports).1.fin := by
  induction reports generalizing p flags unfinished with
  | nil => exact hfin
  | cons report rest ih =>
      have hsplit : (p.handleAll (report :: rest)).1 =
          ((p.handle report).1.handleAll rest).1 := rfl
      rw [hsplit]
      cases report with
      | frameHeader flags' mask length => exact ih rfl unfinished
      | frameBody flags' mask offset data =>
          have hfin' : (p.onFrameBody flags' mask offset data).1.fin = flags.fin := by
            rw [onFrameBody_eq]
            exact hfin
          exact ih hfin' unfinished
      | frameEnd => exact ih ((onFrameEnd_fin p).trans hfin) _

end WsParser

/-- A frame in hand stays in hand, or leaves its message unfinished, where no later
frame matters. -/
theorem pending_of_lastFrame_none {flags : WsFlags} {frame : FrameProgress}
    {inHand' : Option FrameProgress} {unfinished : Bool} {reports : List WsReport}
    (h : WellReported (some frame) reports inHand') (hlast : lastFrame flags reports = none) :
    inHand' ≠ none ∨ (wsPending flags unfinished reports).2 = true := by
  cases reports with
  | nil =>
      left
      have hsame : some frame = inHand' := h
      simp [← hsame]
  | cons report rest =>
      cases report with
      | frameHeader flags' mask length => exact h.elim
      | frameBody flags' mask offset data =>
          simp only [lastFrame, Option.or_eq_none_iff] at hlast
          exact absurd hlast.2 (by simp)
      | frameEnd =>
          simp only [lastFrame, Option.or_eq_none_iff] at hlast
          have hfin : flags.fin = false := by
            cases hflag : flags.fin with
            | true => simp [hflag] at hlast
            | false => rfl
          cases rest with
          | nil => simp [wsPending, WsFlags.unfinished, hfin]
          | cons report' rest' =>
              cases report' with
              | frameHeader flags' mask length =>
                  simp only [lastFrame, Option.or_eq_none_iff] at hlast
                  exact absurd hlast.1.2 (by simp)
              | frameBody flags' mask offset data => exact h.2.elim
              | frameEnd => exact h.2.elim

/-- Where the last frame to matter is still coming or not final, something is
unfinished. -/
theorem pending_of_lastFrame_true {flags : WsFlags} {inHand inHand' : Option FrameProgress}
    {unfinished : Bool} {reports : List WsReport}
    (h : WellReported inHand reports inHand')
    (hlast : lastFrame flags reports = some true) :
    inHand' ≠ none ∨ (wsPending flags unfinished reports).2 = true := by
  induction reports generalizing inHand flags unfinished with
  | nil => cases hlast
  | cons report rest ih =>
      cases inHand with
      | none =>
          cases report with
          | frameHeader flags' mask length =>
              change inHand' ≠ none ∨ (wsPending flags' unfinished rest).2 = true
              cases hrest : lastFrame flags' rest with
              | none => exact pending_of_lastFrame_none h hrest
              | some last =>
                  rw [lastFrame, hrest, Option.some_or] at hlast
                  exact ih h (hrest.trans hlast)
          | _ => exact h.elim
      | some frame =>
          cases report with
          | frameHeader flags' mask length => exact h.elim
          | frameBody flags' mask offset data =>
              obtain ⟨-, -, -, -, hreported⟩ := h
              change inHand' ≠ none ∨ (wsPending flags unfinished rest).2 = true
              cases hrest : lastFrame flags rest with
              | none => exact pending_of_lastFrame_none hreported hrest
              | some last =>
                  rw [lastFrame, hrest, Option.some_or] at hlast
                  exact ih hreported (hrest.trans hlast)
          | frameEnd =>
              cases hrest : lastFrame flags rest with
              | none =>
                  rw [lastFrame, hrest, Option.none_or] at hlast
                  cases hfin : flags.fin <;> simp [hfin] at hlast
              | some last =>
                  rw [lastFrame, hrest, Option.some_or] at hlast
                  exact ih h.2 (hrest.trans hlast)

namespace WebConn

/-- The context is in order: a parser that is at rest has no complete request left, the
frame parser is where its calls leave it, and nothing has come through it before the
upgrade. -/
structure Ok (c : WebConn) : Prop where
  frameParser : c.frameParser.Ok
  fin : c.wsParser.fin = c.frame.fin
  upgrade : c.upgraded = false → c.httpParser.upgrade = false
  complete : c.upgraded = false → c.httpParser.failed = false →
    c.httpParser.complete = false
  fresh : c.upgraded = false → c.unfinished = false ∧ c.frameParser.state = .start

theorem Ok.init : WebConn.init.Ok where
  frameParser := .init
  fin := rfl
  upgrade := fun _ => rfl
  complete := fun _ _ => rfl
  fresh := fun _ => ⟨rfl, rfl⟩

theorem Ok.wsExecute {c : WebConn} (h : c.Ok) (hupgraded : c.upgraded = true)
    (data : Bytes) : (c.wsExecute data).Ok where
  frameParser := (WebsocketParser.execute_reports h.frameParser data).ok
  fin := WsParser.handleAll_fin h.fin _ _
  upgrade := fun hnot => absurd hupgraded (by simpa [WebConn.wsExecute] using hnot)
  complete := fun hnot => absurd hupgraded (by simpa [WebConn.wsExecute] using hnot)
  fresh := fun hnot => absurd hupgraded (by simpa [WebConn.wsExecute] using hnot)

/-- Behind the last final frame of the data nothing is unfinished, and data without a
header, a body or such a frame leave it at what was. -/
def WsSettled (c : WebConn) (record : Bool) (data : Bytes) : Prop :=
  match lastFrame c.frame (c.frameParser.execute data).2 with
  | some true => True
  | some false => (c.wsExecute data).pending = false
  | none => (c.wsExecute data).pending = record

theorem wsRecord_eq_pending_iff {c : WebConn} (h : c.Ok) (record : Bool) (data : Bytes) :
    c.wsRecord record data = (c.wsExecute data).pending ↔ c.WsSettled record data := by
  have hreports := (WebsocketParser.execute_reports h.frameParser data).reported
  rw [wsRecord, WsParser.foldl_record_handleAll h.fin, WsSettled]
  cases hlast : lastFrame c.frame (c.frameParser.execute data).2 with
  | none => exact eq_comm
  | some last =>
      cases last with
      | false => exact eq_comm
      | true =>
          have hpending : (c.wsExecute data).pending = true := by
            have hsomething : (c.frameParser.execute data).1.inHand ≠ none ∨
                (wsPending c.frame c.unfinished (c.frameParser.execute data).2).2 = true :=
              pending_of_lastFrame_true hreports hlast
            rcases hsomething with hhand | hmessage
            · have hstate : (c.frameParser.execute data).1.state ≠ .start := by
                intro hstart
                apply hhand
                rw [WebsocketParser.inHand, hstart]
              simp [pending, WebConn.wsExecute, hstate]
            · simp [pending, WebConn.wsExecute, hmessage]
          simp [hpending]

end WebConn

namespace WebThread

/-- The end of a request in a chunk that is served has nothing behind it, and one that is
not served has. -/
def HttpSettled (env : HttpEnv) (s : WebThread) (conn : ℕ) (c : WebConn)
    (chunk : HttpChunk) (sent : Bool) : Prop :=
  ∀ t, (s.httpParse conn c).feed env chunk.events = some t →
    ∀ pending, httpPending c.inRequest chunk.events = some pending →
      if t.parser.upgrade then
        (t.parser.req.checkUpgrade && sent) = true →
          { c with inRequest := pending }.WsSettled true chunk.rest
      else .messageComplete ∈ chunk.events → pending = !chunk.accepted

/-- A chunk that leaves a record exactly if it leaves something unfinished. -/
def Settled (env : HttpEnv) (s : WebThread) : WebAction → Prop
  | .connected _ => True
  | .closeClient _ => True
  | .recv conn chunk data sent closes =>
      conn ∉ closes →
        ∀ c, s.conns conn = some c →
          if c.upgraded then c.WsSettled c.pending data
          else s.HttpSettled env conn c chunk sent

end WebThread

namespace WebThread

variable {env : HttpEnv} {s s' : WebThread}

@[simp] theorem set_records_self (s : WebThread) (conn : ℕ) (c : WebConn) (record : Bool) :
    (s.set conn c record).records conn = record := by
  simp [set]

@[simp] theorem set_pending_self (s : WebThread) (conn : ℕ) (c : WebConn) (record : Bool) :
    (s.set conn c record).pending conn = c.pending := by
  simp [set, pending]

/-- Only one connection is touched, and its context is left in order unless a handler
closes it. -/
structure Touches (s : WebThread) (conn : ℕ) (closed : Prop) (s' : WebThread) : Prop where
  others : ∀ other, other ≠ conn →
    s'.records other = s.records other ∧ s'.conns other = s.conns other
  ok : ¬closed → ∀ c, s'.conns conn = some c → c.Ok

theorem touches_set (s : WebThread) (bodyCallback : BodyCallback) (conn : ℕ) {c : WebConn}
    (record : Bool) {closed : Prop} (h : ¬closed → c.Ok) :
    Touches s conn closed ({ s with bodyCallback := bodyCallback }.set conn c record) where
  others := by
    intro other hother
    simp [set, hother]
  ok := by
    intro hopen c' hc'
    simp only [set, Function.update_self, Option.some.injEq] at hc'
    exact hc' ▸ h hopen

theorem touches_closeClient (s : WebThread) (bodyCallback : BodyCallback) (conn : ℕ)
    (closed : Prop) :
    Touches s conn closed ({ s with bodyCallback := bodyCallback }.closeClient conn) where
  others := by
    intro other hother
    simp [closeClient, hother]
  ok := by
    intro _ c hc
    simp [closeClient] at hc

theorem httpExecute_eq_some {conn : ℕ} {c : WebConn} {chunk : HttpChunk} {sent : Bool}
    {closes : List ℕ} (h : s.httpExecute env conn c chunk sent closes = some s') :
    ∃ t pending, (s.httpParse conn c).feed env chunk.events = some t ∧
      httpPending c.inRequest chunk.events = some pending ∧
      (t.parser.failed = true → chunk.accepted = false) ∧
      (c.httpParser.failed = true → chunk.events = []) ∧
      s' = s.handedOn conn { c with inRequest := pending }
        (t.afterFeed chunk.accepted (conn ∈ closes)).1
        (t.afterFeed chunk.accepted (conn ∈ closes)).2 chunk.rest sent := by
  obtain ⟨⟨u, outcome⟩, hexecute, hrest⟩ := Option.bind_eq_some_iff.mp h
  obtain ⟨pending, hpending, hdone⟩ := Option.bind_eq_some_iff.mp hrest
  obtain ⟨t, ht, hafter⟩ := Option.map_eq_some_iff.mp hexecute
  split_ifs at hdone with hnot
  rw [not_or, not_and, not_and, not_not] at hnot
  refine ⟨t, pending, ht, hpending, ?_, hnot.2, ?_⟩
  · intro hfailed
    have hkept : u.parser.failed = true := by
      have hfirst := congrArg (fun r => r.1.parser.failed) hafter
      rw [← hfirst]
      unfold HttpParse.afterFeed
      simp only [hfailed, Bool.true_or, if_true]
      split_ifs
      · exact hfailed
      · rfl
    simpa using hnot.1 hkept
  · rw [hafter]
    exact (Option.some.inj hdone).symm

theorem pending_of_fresh {c : WebConn} (hc : c.Ok) (hupgraded : c.upgraded = false)
    (pending : Bool) : { c with inRequest := pending }.pending = pending := by
  obtain ⟨hunfinished, hstart⟩ := hc.fresh hupgraded
  simp [WebConn.pending, hunfinished, hstart]

/-- A call has put the record in; where no request has ended, it is still due. -/
theorem feed_record_due {conn : ℕ} {c : WebConn} (hc : c.Ok) (hupgraded : c.upgraded = false)
    (hlaw : s.records conn = c.pending) {events : List HttpEvent} {t : HttpParse}
    {pending : Bool} (ht : (s.httpParse conn c).feed env events = some t)
    (hpending : httpPending c.inRequest events = some pending)
    (hstopped : c.httpParser.failed = true → events = []) :
    (events ≠ [] → t.record = true) ∧
      (.messageComplete ∉ events → t.record = pending) := by
  have hrecord : (s.httpParse conn c).record = c.inRequest := by
    rw [← pending_of_fresh hc hupgraded c.inRequest]
    exact hlaw
  have hcalled : events ≠ [] → t.record = true := by
    intro hne
    have hfailed : c.httpParser.failed = false := by
      by_contra hfailed
      exact hne (hstopped (by simpa using hfailed))
    exact HttpParse.feed_record ht hfailed (hrecord ▸ hpending) hne
  refine ⟨hcalled, ?_⟩
  intro hmem
  rw [httpPending_of_not_mem hpending hmem]
  by_cases hne : events = []
  · rw [hne, HttpParse.feed_nil, Option.some.injEq] at ht
    rw [← ht, hrecord, hne]
    simp
  · simp [hcalled hne, hne]

theorem handedOn_upgrade {conn : ℕ} {c : WebConn} (hc : c.Ok) {t : HttpParse}
    (hrecord : t.record = true) (req : Req) (rest : Bytes) (sent : Bool) (closed : Prop) :
    Touches s conn closed (s.handedOn conn c t (.upgrade req) rest sent) ∧
      ((s.handedOn conn c t (.upgrade req) rest sent).records conn =
          (s.handedOn conn c t (.upgrade req) rest sent).pending conn ↔
        ((req.checkUpgrade && sent) = true → c.WsSettled true rest)) := by
  have hok : { { c with httpParser := t.parser } with upgraded := true }.Ok :=
    { frameParser := hc.frameParser
      fin := hc.fin
      upgrade := fun hnot => by cases hnot
      complete := fun hnot => by cases hnot
      fresh := fun hnot => by cases hnot }
  unfold handedOn
  by_cases hshake : (req.checkUpgrade && sent) = true
  · simp only [if_pos hshake, hrecord]
    refine ⟨touches_set s _ conn _ fun _ => hok.wsExecute rfl rest, ?_⟩
    rw [set_records_self, set_pending_self, WebConn.wsRecord_eq_pending_iff hok true rest]
    exact ⟨fun hsettled _ => hsettled, fun hsettled => hsettled hshake⟩
  · simp only [if_neg hshake]
    refine ⟨touches_closeClient s _ conn _, ?_⟩
    exact ⟨fun _ hshake' => absurd hshake' hshake, fun _ => by simp [closeClient, pending]⟩

theorem handedOn_of_no_upgrade (s : WebThread) (conn : ℕ) {c : WebConn} (hc : c.Ok)
    (hupgraded : c.upgraded = false) (pending : Bool) (t : HttpParse)
    (outcome : HttpOutcome) (houtcome : ∀ req, outcome ≠ .upgrade req) (closed : Prop)
    (hupgrade : t.parser.upgrade = false)
    (hcomplete : ¬closed → t.parser.failed = false → t.parser.complete = false)
    (rest : Bytes) (sent : Bool) :
    Touches s conn closed
        (s.handedOn conn { c with inRequest := pending } t outcome rest sent) ∧
      ((s.handedOn conn { c with inRequest := pending } t outcome rest sent).records conn =
          (s.handedOn conn { c with inRequest := pending } t outcome rest sent).pending conn ↔
        t.record = pending) := by
  have hset : s.handedOn conn { c with inRequest := pending } t outcome rest sent =
      { s with bodyCallback := t.bodyCallback }.set conn
        { { c with inRequest := pending } with httpParser := t.parser } t.record := by
    cases outcome with
    | upgrade req => exact absurd rfl (houtcome req)
    | _ => rfl
  have hpending : { { c with inRequest := pending } with
      httpParser := t.parser }.pending = pending := pending_of_fresh hc hupgraded pending
  rw [hset, set_records_self, set_pending_self, hpending]
  refine ⟨touches_set s _ conn _ fun hopen => ?_, Iff.rfl⟩
  exact
    { frameParser := hc.frameParser
      fin := hc.fin
      upgrade := fun _ => hupgrade
      complete := fun _ => hcomplete hopen
      fresh := fun _ => hc.fresh hupgraded }

/-- A chunk for the HTTP parser leaves the law exactly if it is settled. -/
theorem httpExecute_law {conn : ℕ} {c : WebConn} (hc : c.Ok) (hupgraded : c.upgraded = false)
    (hlaw : s.records conn = c.pending) {chunk : HttpChunk} {sent : Bool} {closes : List ℕ}
    (h : s.httpExecute env conn c chunk sent closes = some s') :
    Touches s conn (conn ∈ closes) s' ∧
      (s'.records conn = s'.pending conn ↔ s.HttpSettled env conn c chunk sent) := by
  obtain ⟨t, pending, ht, hpending, hrefused, hstopped, rfl⟩ := httpExecute_eq_some h
  obtain ⟨hcalled, hquiet⟩ := feed_record_due hc hupgraded hlaw ht hpending hstopped
  have hsettled : s.HttpSettled env conn c chunk sent ↔
      if t.parser.upgrade then
        (t.parser.req.checkUpgrade && sent) = true →
          { c with inRequest := pending }.WsSettled true chunk.rest
      else .messageComplete ∈ chunk.events → pending = !chunk.accepted := by
    simp [HttpSettled, ht, hpending]
  rw [hsettled]
  cases hupgrade : t.parser.upgrade with
  | true =>
      have hne : chunk.events ≠ [] := by
        intro hnil
        rw [hnil, HttpParse.feed_nil, Option.some.injEq] at ht
        rw [← ht] at hupgrade
        exact absurd hupgrade (by simp [httpParse, hc.upgrade hupgraded])
      have hafter : t.afterFeed chunk.accepted (conn ∈ closes) =
          (t, .upgrade t.parser.req) := by
        simp [HttpParse.afterFeed, hupgrade]
      have hc' : { c with inRequest := pending }.Ok :=
        { frameParser := hc.frameParser
          fin := hc.fin
          upgrade := hc.upgrade
          complete := hc.complete
          fresh := hc.fresh }
      rw [hafter, if_pos rfl]
      exact handedOn_upgrade hc' (hcalled hne) t.parser.req chunk.rest sent _
  | false =>
      rw [if_neg Bool.false_ne_true]
      cases haccepted : chunk.accepted with
      | false =>
          -- the parse has failed, and the record stays
          have hafter : t.afterFeed false (conn ∈ closes) =
              ({ t with parser := { t.parser with failed := true } }, .nothing) := by
            simp [HttpParse.afterFeed, hupgrade]
          rw [hafter]
          obtain ⟨htouches, hiff⟩ := handedOn_of_no_upgrade s conn hc hupgraded pending
            { t with parser := { t.parser with failed := true } } .nothing (by simp)
            (conn ∈ closes) hupgrade (fun _ hfailed => by cases hfailed) chunk.rest sent
          refine ⟨htouches, hiff.trans ?_⟩
          change t.record = pending ↔ _
          by_cases hmem : .messageComplete ∈ chunk.events
          · rw [hcalled (List.ne_nil_of_mem hmem)]
            simp [hmem, eq_comm]
          · simp [hmem, hquiet hmem]
      | true =>
          have hfailed : t.parser.failed = false := by
            by_contra hfailed
            rw [hrefused (by simpa using hfailed)] at haccepted
            cases haccepted
          have hfailed' : c.httpParser.failed = false := HttpParse.not_failed_of_feed ht hfailed
          have hcomplete' : c.httpParser.complete = false := hc.complete hupgraded hfailed'
          cases hcomplete : t.parser.complete with
          | true =>
              -- the request is dispatched, and the record taken out
              have hmem : .messageComplete ∈ chunk.events := by
                by_contra hmem
                rw [HttpParse.feed_complete_of_not_mem ht hmem] at hcomplete
                exact absurd hcomplete (by simp [httpParse, hcomplete'])
              have hafter : t.afterFeed true (conn ∈ closes) =
                  (t.dispatched (conn ∈ closes), .httpReq t.parser.req.finish) := by
                simp [HttpParse.afterFeed, hupgrade, hfailed, hcomplete]
              rw [hafter]
              obtain ⟨htouches, hiff⟩ := handedOn_of_no_upgrade s conn hc hupgraded pending
                (t.dispatched (conn ∈ closes)) (.httpReq t.parser.req.finish) (by simp)
                (conn ∈ closes)
                (by unfold HttpParse.dispatched; dsimp only; split_ifs <;> exact hupgrade)
                (fun hopen _ => by simp [HttpParse.dispatched, hopen]) chunk.rest sent
              refine ⟨htouches, hiff.trans ?_⟩
              change false = pending ↔ _
              simp [hmem, eq_comm]
          | false =>
              have hmem : .messageComplete ∉ chunk.events := by
                intro hmem
                rw [HttpParse.feed_complete ht hfailed (.inr hmem)] at hcomplete
                cases hcomplete
              have hafter : t.afterFeed true (conn ∈ closes) = (t, .nothing) := by
                simp [HttpParse.afterFeed, hupgrade, hfailed, hcomplete]
              rw [hafter]
              obtain ⟨htouches, hiff⟩ := handedOn_of_no_upgrade s conn hc hupgraded pending t
                .nothing (by simp) (conn ∈ closes) hupgrade (fun _ _ => hcomplete)
                chunk.rest sent
              refine ⟨htouches, hiff.trans ?_⟩
              simp [hmem, hquiet hmem]

/-! ## Runs -/

structure Inv (s : WebThread) : Prop where
  law : s.RecordLaw
  ok : ∀ conn c, s.conns conn = some c → c.Ok

theorem Inv.init : WebThread.init.Inv where
  law := fun _ => rfl
  ok := fun _ _ h => by cases h

theorem Inv.recv (hs : s.Inv) {conn : ℕ} {chunk : HttpChunk} {data : Bytes} {sent : Bool}
    {closes : List ℕ} (h : s.recv env conn chunk data sent closes = some s') :
    Touches s conn (conn ∈ closes) s' ∧
      (s'.records conn = s'.pending conn ↔
        ∀ c, s.conns conn = some c →
          if c.upgraded then c.WsSettled c.pending data
          else s.HttpSettled env conn c chunk sent) := by
  unfold WebThread.recv at h
  cases hconn : s.conns conn with
  | none =>
      rw [hconn, Option.some.injEq] at h
      subst h
      constructor
      · exact ⟨fun _ _ => ⟨rfl, rfl⟩, fun _ => hs.ok conn⟩
      · simp [hs.law conn]
  | some c =>
      have hc := hs.ok conn c hconn
      have hlaw : s.records conn = c.pending := by
        rw [hs.law conn, WebThread.pending, hconn]
        rfl
      simp only [hconn] at h
      simp only [Option.some.injEq, forall_eq']
      cases hupgraded : c.upgraded with
      | true =>
          rw [hupgraded, if_pos rfl, Option.some.injEq] at h
          subst h
          rw [if_pos rfl, set_records_self, set_pending_self,
            WebConn.wsRecord_eq_pending_iff hc, hlaw]
          exact ⟨touches_set s s.bodyCallback conn _ fun _ => hc.wsExecute hupgraded data,
            Iff.rfl⟩
      | false =>
          rw [hupgraded, if_neg Bool.false_ne_true] at h
          rw [if_neg Bool.false_ne_true]
          exact httpExecute_law hc hupgraded hlaw h

theorem foldl_closeClient (s : WebThread) (closes : List ℕ) (conn : ℕ) :
    (closes.foldl closeClient s).records conn =
        (if conn ∈ closes then false else s.records conn) ∧
      (closes.foldl closeClient s).conns conn =
        (if conn ∈ closes then none else s.conns conn) := by
  induction closes generalizing s with
  | nil => simp
  | cons closed rest ih =>
      obtain ⟨hrecords, hconns⟩ := ih (s.closeClient closed)
      rw [List.foldl_cons, hrecords, hconns]
      by_cases hclosed : conn = closed
      · subst hclosed
        simp [closeClient]
      · simp [closeClient, hclosed]

/-- What the data and the closes behind them come to, connection by connection. -/
theorem Inv.recv_closes (hs : s.Inv) {conn : ℕ} {chunk : HttpChunk} {data : Bytes}
    {sent : Bool} {closes : List ℕ}
    (h : s.recv env conn chunk data sent closes = some s') :
    ((closes.foldl closeClient s').RecordLaw ↔
        s.Settled env (.recv conn chunk data sent closes)) ∧
      ∀ other c, (closes.foldl closeClient s').conns other = some c → c.Ok := by
  obtain ⟨htouches, hiff⟩ := hs.recv h
  have hother : ∀ other, other ≠ conn →
      (closes.foldl closeClient s').records other =
        (closes.foldl closeClient s').pending other := by
    intro other hne
    obtain ⟨hrecords, hconns⟩ := foldl_closeClient s' closes other
    rw [WebThread.pending, hrecords, hconns, (htouches.others other hne).1,
      (htouches.others other hne).2]
    split_ifs
    · rfl
    · exact hs.law other
  obtain ⟨hrecords, hconns⟩ := foldl_closeClient s' closes conn
  constructor
  · have hself : (closes.foldl closeClient s').RecordLaw ↔
        (closes.foldl closeClient s').records conn =
          (closes.foldl closeClient s').pending conn := by
      constructor
      · exact fun hlaw => hlaw conn
      · intro hlaw other
        by_cases hne : other = conn
        · rw [hne]
          exact hlaw
        · exact hother other hne
    rw [hself, WebThread.pending, hrecords, hconns, Settled]
    by_cases hclosed : conn ∈ closes
    · simp [hclosed]
    · simp only [hclosed, not_false_iff, true_imp_iff]
      exact hiff
  · intro other c hc
    rw [(foldl_closeClient s' closes other).2] at hc
    split_ifs at hc with hclosed
    by_cases hne : other = conn
    · subst hne
      exact htouches.ok hclosed c hc
    · rw [(htouches.others other hne).2] at hc
      exact hs.ok other c hc

theorem Inv.connected (hs : s.Inv) {conn : ℕ} (hconn : s.conns conn = none) :
    Inv { s with conns := Function.update s.conns conn (some .init) } where
  law := by
    intro other
    by_cases hother : other = conn
    · subst hother
      have hnone : s.records other = false := by
        rw [hs.law other, WebThread.pending, hconn]
        rfl
      simp [hnone, WebThread.pending, WebConn.pending, WebConn.init, WebsocketParser.init]
    · have hlaw := hs.law other
      simpa [WebThread.pending, hother] using hlaw
  ok := by
    intro other c hc
    by_cases hother : other = conn
    · subst hother
      simp only [Function.update_self, Option.some.injEq] at hc
      exact hc ▸ .init
    · apply hs.ok other c
      simpa [hother] using hc

theorem Inv.closeClient (hs : s.Inv) (conn : ℕ) : (s.closeClient conn).Inv where
  law := by
    intro other
    by_cases hother : other = conn
    · subst hother
      simp [WebThread.closeClient, WebThread.pending]
    · have hlaw := hs.law other
      simpa [WebThread.closeClient, WebThread.pending, hother] using hlaw
  ok := by
    intro other c hc
    by_cases hother : other = conn
    · subst hother
      simp [WebThread.closeClient] at hc
    · apply hs.ok other c
      simpa [WebThread.closeClient, hother] using hc

theorem Inv.step (hs : s.Inv) {a : WebAction} (h : s.step env a = some s') :
    (s.Settled env a → s'.Inv) ∧ (s'.RecordLaw → s.Settled env a) := by
  cases a with
  | connected conn =>
      simp only [WebThread.step] at h
      split_ifs at h with hconn
      rw [← Option.some.inj h]
      exact ⟨fun _ => hs.connected hconn, fun _ => trivial⟩
  | closeClient conn =>
      rw [← Option.some.inj h]
      exact ⟨fun _ => hs.closeClient conn, fun _ => trivial⟩
  | recv conn chunk data sent closes =>
      obtain ⟨t, ht, rfl⟩ := Option.map_eq_some_iff.mp h
      obtain ⟨hlaw, hok⟩ := hs.recv_closes ht
      exact ⟨fun hsettled => ⟨hlaw.mpr hsettled, hok⟩, hlaw.mp⟩

/-- **The records of a web thread**: in every state of a run there is a record exactly
for the connections with something unfinished, exactly if every chunk of the run is
settled. -/
theorem run_recordLaw_iff (env : HttpEnv) (actions : List WebAction) :
    Along (step env) RecordLaw (fun _ _ _ => True) init actions ↔
      Guarded (step env) (Settled env) init actions :=
  along_iff_guarded (fun _ hs => hs.law)
    (fun _ _ _ hs hsettled hstep => ⟨(hs.step hstep).1 hsettled, trivial⟩)
    (fun _ _ _ hs hstep _ hlaw => (hs.step hstep).2 hlaw) actions Inv.init

def getEvents (lines : List (Bytes × Bytes)) (upgrade : Bool) : List HttpEvent :=
  [.messageBegin, .url (ascii "/")] ++
    lines.flatMap (fun line => [.headerField line.1, .headerValue line.2]) ++
    [.headersComplete 1 1 1 upgrade, .messageComplete]

def upgradeLines : List (Bytes × Bytes) :=
  [(ascii "Upgrade", ascii "websocket"), (ascii "Connection", ascii "Upgrade"),
    (ascii "Sec-WebSocket-Version", ascii "13"), (ascii "Sec-WebSocket-Key", ascii "x")]

def firstData (events : List HttpEvent) : Option WebThread :=
  run (step .ofPaths) init
    [.connected 0, .recv 0 (.ofEvents events) [] true []]

/-- An idle connection behind an upgrade has a record, and a request that has begun
behind another one has none. -/
theorem not_recordLaw :
    (∃ s, firstData (getEvents upgradeLines true) = some s ∧
        s.records 0 = true ∧ s.pending 0 = false) ∧
      (∃ s, firstData (getEvents [] false ++ [.messageBegin]) = some s ∧
        s.records 0 = false ∧ s.pending 0 = true) ∧
      ¬∀ (env : HttpEnv) (actions : List WebAction) (s : WebThread),
        run (step env) init actions = some s → s.RecordLaw := by
  have hidle : (firstData (getEvents upgradeLines true)).map
      (fun s => (s.records 0, s.pending 0)) = some (true, false) := by decide +kernel
  have hpart : (firstData (getEvents [] false ++ [.messageBegin])).map
      (fun s => (s.records 0, s.pending 0)) = some (false, true) := by decide +kernel
  obtain ⟨s, hs, hpair⟩ := Option.map_eq_some_iff.mp hidle
  obtain ⟨t, ht, hpair'⟩ := Option.map_eq_some_iff.mp hpart
  rw [Prod.mk.injEq] at hpair hpair'
  refine ⟨⟨s, hs, hpair⟩, ⟨t, ht, hpair'⟩, fun hlaw => ?_⟩
  have hzero := hlaw _ _ s hs 0
  rw [hpair.1, hpair.2] at hzero
  cases hzero

end WebThread

end CommonComponent
