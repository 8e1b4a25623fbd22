import CommonComponent.HttpReq
import Mathlib.Tactic

/-!
# The HTTP parser of a connection

The library goes through a chunk and calls back for each token, or for the piece of a
token that lies in the chunk.  `http::Parser` collects the pieces in a `Req`, and
`Execute` looks at its flags when the library has returned: an upgrade is handed on, a
failed parse is given up, a complete request is dispatched and the `Req` cleared.

Which callback is behind `on_body` is in the settings, of which there is one object
for all parsers.  A callback has no result where it reads a null pointer, or behind a
string: the process ends there.
-/

namespace CommonComponent

/-- A call of the library.  What it has in its struct by then comes with it. -/
inductive HttpEvent
  | messageBegin
  | url (data : Bytes)
  | headerField (data : Bytes)
  | headerValue (data : Bytes)
  | headersComplete (method major minor : ℕ) (upgrade : Bool)
  | body (data : Bytes)
  | messageComplete
deriving DecidableEq

def HttpEvent.isUpgrade : HttpEvent → Bool
  | .headersComplete _ _ _ upgrade => upgrade
  | _ => false

/-- What the library makes of a chunk: its calls, and whether it accepts all bytes.
`rest` is what lies behind an upgrade. -/
structure HttpChunk where
  events : List HttpEvent
  accepted : Bool
  rest : Bytes
deriving DecidableEq

/-- A chunk that the library accepts, without an upgrade in it. -/
def HttpChunk.ofEvents (events : List HttpEvent) : HttpChunk := ⟨events, true, []⟩

/-- `on_body` of the settings. -/
inductive BodyCallback
  | onBody
  | onMPartBody
deriving DecidableEq

/-- `upgrade` and `failed` are flags of the library's struct. -/
structure HttpParser where
  req : Req
  lastHeaderName : Bytes
  complete : Bool
  upgrade : Bool
  failed : Bool
deriving DecidableEq

/-- A parser at work: with the callback that is shared, and whether `part_msg_mgr_` has
a record for the connection. -/
structure HttpParse where
  parser : HttpParser
  bodyCallback : BodyCallback
  record : Bool
deriving DecidableEq

/-- What `Execute` hands on. -/
inductive HttpOutcome
  | nothing
  | httpReq (req : Req)
  | upgrade (req : Req)
deriving DecidableEq

def HttpOutcome.reqs : HttpOutcome → List Req
  | .httpReq req => [req]
  | _ => []

def HttpParser.init : HttpParser where
  req := .init
  lastHeaderName := []
  complete := false
  upgrade := false
  failed := false

namespace Req

def decode (r : Req) : Req :=
  if r.urlDecode then
    { r with
      query := CommonComponent.urlDecode r.query
      body := CommonComponent.urlDecode r.body }
  else r

/-- The request as it is dispatched: decoded, and with its query pairs. -/
def finish (r : Req) : Req :=
  if r.decode.query = [] then r.decode else r.decode.parseQuery

@[simp] theorem finish_url (r : Req) : r.finish.url = r.url := by
  unfold finish decode
  split_ifs <;> rfl

@[simp] theorem finish_headers (r : Req) : r.finish.headers = r.headers := by
  unfold finish decode
  split_ifs <;> rfl

@[simp] theorem finish_body (r : Req) :
    r.finish.body = if r.urlDecode then CommonComponent.urlDecode r.body else r.body := by
  unfold finish decode
  split_ifs <;> rfl

end Req

namespace HttpParse

def init : HttpParse where
  parser := .init
  bodyCallback := .onBody
  record := false

def setReq (s : HttpParse) (req : Req) : HttpParse :=
  { s with parser := { s.parser with req := req } }

def recordPartMsg (s : HttpParse) : HttpParse := { s with record := true }

/-- The callback for the body is set back. -/
def onMessageBegin (s : HttpParse) : HttpParse :=
  { s with bodyCallback := .onBody }.recordPartMsg

def onURL (env : HttpEnv) (s : HttpParse) (data : Bytes) : HttpParse :=
  (s.setReq (s.parser.req.parseURL env data)).recordPartMsg

def onHeaderField (s : HttpParse) (data : Bytes) : HttpParse :=
  { s with parser := { s.parser with lastHeaderName := data } }.recordPartMsg

def onHeaderValue (s : HttpParse) (data : Bytes) : HttpParse :=
  (s.setReq (s.parser.req.addHeader s.parser.lastHeaderName data)).recordPartMsg

/-- The multipart parser takes the body over; without a boundary the parse has failed. -/
def initMPart (s : HttpParse) (boundary : Bytes) : HttpParse :=
  if boundary = [] then
    let freed := s.setReq { s.parser.req with boundary := none }
    { freed with parser := { freed.parser with failed := true } }
  else
    { s.setReq { s.parser.req with boundary := some boundary } with
      bodyCallback := .onMPartBody }.recordPartMsg

/-- What the library has in its struct is copied. -/
def copyHead (s : HttpParse) (method major minor : ℕ) : HttpParse :=
  let req : Req :=
    { s.parser.req with
      method := method
      majorVersion := major
      minorVersion := minor }
  s.setReq req.parseClientIP

def takeBody (s : HttpParse) : BodyKind → Option HttpParse
  | .plain => some s.recordPartMsg
  | .urlEncoded => some (s.setReq { s.parser.req with urlDecode := true }).recordPartMsg
  | .multipart none => none
  | .multipart (some boundary) => some (s.initMPart boundary)

def onHeadersComplete (s : HttpParse) (method major minor : ℕ) : Option HttpParse :=
  (s.copyHead method major minor).takeBody (bodyKind s.parser.req.headers)

def onBody (s : HttpParse) (data : Bytes) : HttpParse :=
  (s.setReq (s.parser.req.appendBody data)).recordPartMsg

/-- What the multipart parser does with the data comes to nothing; it has to be there. -/
def onMPartBody (s : HttpParse) (data : Bytes) : Option HttpParse :=
  if s.parser.req.boundary = none ∧ data ≠ [] then none else some s

def onMessageComplete (env : HttpEnv) (s : HttpParse) : HttpParse :=
  { s with
    parser :=
      { s.parser with
        complete := true
        req := if env.debugLog then s.parser.req.dump else s.parser.req } }

/-- A call of the library; after a failure it makes none. -/
def callback (env : HttpEnv) (s : HttpParse) (event : HttpEvent) : Option HttpParse :=
  if s.parser.failed then some s
  else
    match event with
    | .messageBegin => some s.onMessageBegin
    | .url data => some (s.onURL env data)
    | .headerField data => some (s.onHeaderField data)
    | .headerValue data => some (s.onHeaderValue data)
    | .headersComplete method major minor upgrade =>
        { s with parser := { s.parser with upgrade := upgrade } }.onHeadersComplete
          method major minor
    | .body data =>
        match s.bodyCallback with
        | .onBody => some (s.onBody data)
        | .onMPartBody => s.onMPartBody data
    | .messageComplete => some (s.onMessageComplete env)

/-- `http_parser_execute`. -/
def feed (env : HttpEnv) (s : HttpParse) (events : List HttpEvent) : Option HttpParse :=
  events.foldlM (callback env) s

/-- The parser once a request is dispatched; a closed connection has none any more. -/
def dispatched (s : HttpParse) (connClosed : Bool) : HttpParse :=
  { s with
    record := false
    parser :=
      if connClosed then { s.parser with req := s.parser.req.finish }
      else
        { s.parser with
          req := s.parser.req.finish.reset
          lastHeaderName := []
          complete := false } }

/-- `Execute` behind the call of the library. -/
def afterFeed (s : HttpParse) (accepted connClosed : Bool) : HttpParse × HttpOutcome :=
  if s.parser.upgrade then (s, .upgrade s.parser.req)
  else if s.parser.failed || !accepted then
    ({ s with parser := { s.parser with failed := true } }, .nothing)
  else if s.parser.complete then
    (s.dispatched connClosed, .httpReq s.parser.req.finish)
  else (s, .nothing)

def execute (env : HttpEnv) (connClosed : Bool) (s : HttpParse) (chunk : HttpChunk) :
    Option (HttpParse × HttpOutcome) :=
  (s.feed env chunk.events).map fun s => s.afterFeed chunk.accepted connClosed

/-- What a call leaves as it is. -/
structure Called (s : HttpParse) (event : HttpEvent) (t : HttpParse) : Prop where
  complete : event ≠ .messageComplete → t.parser.complete = s.parser.complete
  upgrade : event.isUpgrade = false → s.parser.upgrade = false →
    t.parser.upgrade = false
  url : t.parser.req.url = s.parser.req.url ∨ event = .url t.parser.req.url
  record : s.record = true → t.record = true

theorem onHeadersComplete_keeps {s t : HttpParse} {method major minor : ℕ}
    (h : s.onHeadersComplete method major minor = some t) :
    t.parser.complete = s.parser.complete ∧ t.parser.upgrade = s.parser.upgrade ∧
      t.parser.req.url = s.parser.req.url ∧ (s.record = true → t.record = true) := by
  unfold onHeadersComplete at h
  cases hkind : bodyKind s.parser.req.headers with
  | plain =>
      rw [hkind] at h
      cases h
      simp [copyHead, setReq, recordPartMsg]
  | urlEncoded =>
      rw [hkind] at h
      cases h
      simp [copyHead, setReq, recordPartMsg]
  | multipart boundary =>
      rw [hkind] at h
      cases boundary with
      | none => cases h
      | some boundary =>
          cases h
          unfold initMPart
          split_ifs <;> simp [copyHead, setReq, recordPartMsg]

theorem callback_called {env : HttpEnv} {s t : HttpParse} {event : HttpEvent}
    (h : s.callback env event = some t) : Called s event t := by
  unfold callback at h
  split_ifs at h
  · cases h
    exact ⟨fun _ => rfl, fun _ h => h, .inl rfl, fun h => h⟩
  · cases event with
    | messageBegin =>
        cases h
        exact ⟨fun _ => rfl, fun _ h => h, .inl rfl, fun _ => rfl⟩
    | url data =>
        cases h
        exact ⟨fun _ => rfl, fun _ h => h, .inr (by simp [onURL, setReq, recordPartMsg]),
          fun _ => rfl⟩
    | headerField data =>
        cases h
        exact ⟨fun _ => rfl, fun _ h => h, .inl rfl, fun _ => rfl⟩
    | headerValue data =>
        cases h
        exact ⟨fun _ => rfl, fun _ h => h, .inl rfl, fun _ => rfl⟩
    | headersComplete method major minor upgrade =>
        obtain ⟨hcomplete, hupgrade, hurl, hrecord⟩ := onHeadersComplete_keeps h
        exact ⟨fun _ => hcomplete, fun hplain _ => hupgrade.trans hplain, .inl hurl,
          hrecord⟩
    | body data =>
        cases hbody : s.bodyCallback with
        | onBody =>
            simp only [hbody, Option.some.injEq] at h
            subst h
            exact ⟨fun _ => rfl, fun _ h => h, .inl rfl, fun _ => rfl⟩
        | onMPartBody =>
            simp only [hbody, onMPartBody] at h
            split_ifs at h
            cases h
            exact ⟨fun _ => rfl, fun _ h => h, .inl rfl, fun h => h⟩
    | messageComplete =>
        cases h
        refine ⟨fun h => absurd rfl h, fun _ h => h, .inl ?_, fun h => h⟩
        unfold onMessageComplete
        dsimp only
        split_ifs <;> simp

theorem feed_nil (env : HttpEnv) (s : HttpParse) : s.feed env [] = some s := rfl

theorem feed_cons (env : HttpEnv) (s : HttpParse) (event : HttpEvent)
    (events : List HttpEvent) :
    s.feed env (event :: events) = (s.callback env event).bind (·.feed env events) :=
  List.foldlM_cons

theorem feed_cons_eq_some {env : HttpEnv} {s t : HttpParse} {event : HttpEvent}
    {events : List HttpEvent} (h : s.feed env (event :: events) = some t) :
    ∃ mid, s.callback env event = some mid ∧ mid.feed env events = some t :=
  Option.bind_eq_some_iff.mp ((feed_cons env s event events).symm.trans h)

/-- What every call keeps, the library keeps. -/
theorem feed_keeps {env : HttpEnv} {P : HttpParse → Prop} {events : List HttpEvent}
    (hcall : ∀ event ∈ events, ∀ {s t : HttpParse}, P s → s.callback env event = some t → P t)
    {s t : HttpParse} (hs : P s) (h : s.feed env events = some t) : P t := by
  induction events generalizing s with
  | nil =>
      cases h
      exact hs
  | cons event rest ih =>
      rw [List.forall_mem_cons] at hcall
      obtain ⟨mid, hmid, hrest⟩ := feed_cons_eq_some h
      exact ih hcall.2 (hcall.1 hs hmid) hrest

theorem feed_singleton (env : HttpEnv) (s : HttpParse) (event : HttpEvent) :
    s.feed env [event] = s.callback env event := by
  rw [feed_cons]
  exact Option.bind_fun_some _

theorem feed_append (env : HttpEnv) (s : HttpParse) (events more : List HttpEvent) :
    s.feed env (events ++ more) = (s.feed env events).bind (·.feed env more) :=
  List.foldlM_append

theorem feed_of_failed (env : HttpEnv) {s : HttpParse} (h : s.parser.failed = true)
    (events : List HttpEvent) : s.feed env events = some s := by
  induction events with
  | nil => rfl
  | cons event rest ih =>
      have hstop : s.callback env event = some s := by simp [callback, h]
      rw [feed_cons, hstop]
      exact ih

end HttpParse

end CommonComponent
