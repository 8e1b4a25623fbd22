import CommonComponent.HttpParser
import CommonComponent.LabelledRun
import Mathlib.Tactic

/-!
# Connections that share a callback

There is one `ParserSettings` for all connections of all web threads, and `on_body` in it
is switched while a request comes in: `OnMessageBegin` sets it back, `OnHeadersComplete`
sets it for a multipart body.  Between the headers of a request and its body another
connection may have switched it.

`HttpConns` are the connections with the callback they share, `SharedRun` keeps beside
them what each connection has chosen itself.  As long as a body goes to the callback that
its own connection has chosen, each connection is served as if it were alone.
-/

namespace CommonComponent

open LabelledRun

/-- The data of a connection, and whether the handler of a request in it closes. -/
structure HttpRecv where
  conn : ℕ
  chunk : HttpChunk
  closes : Bool

/-- The connections whose data goes to an HTTP parser, and what was dispatched for each.
A null pointer that is read ends the process. -/
structure HttpConns where
  bodyCallback : BodyCallback
  parsers : ℕ → Option HttpParser
  dispatched : ℕ → List Req
  crashed : Bool

/-- The parser behind an `Execute`: a connection that is closed has none, and the data
behind an upgrade does not go to it. -/
def HttpOutcome.left (outcome : HttpOutcome) (closes : Bool) (p : HttpParser) :
    Option HttpParser :=
  match outcome with
  | .nothing => some p
  | .httpReq _ => if closes then none else some p
  | .upgrade _ => none

namespace HttpConns

def init : HttpConns where
  bodyCallback := .onBody
  parsers := fun _ => some .init
  dispatched := fun _ => []
  crashed := false

/-- `OnRecvClientData`. -/
def recv (env : HttpEnv) (s : HttpConns) (a : HttpRecv) : HttpConns :=
  if s.crashed then s
  else
    match s.parsers a.conn with
    | none => s
    | some p =>
        match HttpParse.execute env a.closes ⟨p, s.bodyCallback, false⟩ a.chunk with
        | none => { s with crashed := true }
        | some (t, outcome) =>
            { s with
              bodyCallback := t.bodyCallback
              parsers := Function.update s.parsers a.conn
                (outcome.left a.closes t.parser)
              dispatched := Function.update s.dispatched a.conn
                (s.dispatched a.conn ++ outcome.reqs) }

def run (env : HttpEnv) (actions : List HttpRecv) : HttpConns :=
  actions.foldl (recv env) init

end HttpConns

def HttpEvent.isBody : HttpEvent → Bool
  | .body _ => true
  | _ => false

namespace HttpParse

/-- Each body in these calls goes to the callback that it would go to in `t`. -/
def BodiesAgree (env : HttpEnv) (s t : HttpParse) : List HttpEvent → Prop
  | [] => True
  | event :: rest =>
      (event.isBody = true → s.bodyCallback = t.bodyCallback) ∧
        match s.callback env event, t.callback env event with
        | some s', some t' => BodiesAgree env s' t' rest
        | _, _ => True

instance BodiesAgree.decidable (env : HttpEnv) :
    ∀ (s t : HttpParse) (events : List HttpEvent), Decidable (BodiesAgree env s t events)
  | _, _, [] => isTrue trivial
  | s, t, event :: rest =>
      match hs : s.callback env event, ht : t.callback env event with
      | some s', some t' =>
          have := BodiesAgree.decidable env s' t' rest
          decidable_of_iff
            ((event.isBody = true → s.bodyCallback = t.bodyCallback) ∧
              BodiesAgree env s' t' rest) (by simp [BodiesAgree, hs, ht])
      | none, _ =>
          decidable_of_iff (event.isBody = true → s.bodyCallback = t.bodyCallback)
            (by simp [BodiesAgree, hs])
      | some _, none =>
          decidable_of_iff (event.isBody = true → s.bodyCallback = t.bodyCallback)
            (by simp [BodiesAgree, hs, ht])

end HttpParse

/-- The connections, and the callback that each of them has chosen last. -/
structure SharedRun where
  conns : HttpConns
  own : ℕ → BodyCallback

namespace SharedRun

def init : SharedRun where
  conns := .init
  own := fun _ => .onBody

def step (env : HttpEnv) (s : SharedRun) (a : HttpRecv) : Option SharedRun :=
  some
    { conns := s.conns.recv env a
      own :=
        match s.conns.parsers a.conn with
        | none => s.own
        | some p =>
            match HttpParse.feed env ⟨p, s.own a.conn, false⟩ a.chunk.events with
            | none => s.own
            | some t => Function.update s.own a.conn t.bodyCallback }

/-- The bodies in the chunk go where their own connection has them go, and nothing in
the chunk makes the parser read where there is nothing. -/
def Undisturbed (env : HttpEnv) (s : SharedRun) (a : HttpRecv) : Prop :=
  ∀ p, s.conns.parsers a.conn = some p →
    HttpParse.BodiesAgree env ⟨p, s.conns.bodyCallback, false⟩
        ⟨p, s.own a.conn, false⟩ a.chunk.events ∧
      HttpParse.feed env ⟨p, s.own a.conn, false⟩ a.chunk.events ≠ none

instance (env : HttpEnv) (s : SharedRun) (a : HttpRecv) : Decidable (s.Undisturbed env a) :=
  match hp : s.conns.parsers a.conn with
  | none => isTrue fun p h => absurd (hp.symm.trans h) (by simp)
  | some p =>
      decidable_of_iff
        (HttpParse.BodiesAgree env ⟨p, s.conns.bodyCallback, false⟩
            ⟨p, s.own a.conn, false⟩ a.chunk.events ∧
          HttpParse.feed env ⟨p, s.own a.conn, false⟩ a.chunk.events ≠ none)
        (by simp [Undisturbed, hp])

end SharedRun

namespace HttpParse

theorem takeBody_sameParser (p : HttpParser) (b b' : BodyCallback) (r r' : Bool)
    (kind : BodyKind) :
    (takeBody ⟨p, b, r⟩ kind).map (·.parser) = (takeBody ⟨p, b', r'⟩ kind).map (·.parser) := by
  cases kind with
  | plain => rfl
  | urlEncoded => rfl
  | multipart boundary =>
      cases boundary with
      | none => rfl
      | some boundary =>
          simp only [takeBody, initMPart]
          split_ifs <;> rfl

theorem callback_sameParser (env : HttpEnv) {s t : HttpParse} (hparser : s.parser = t.parser)
    {event : HttpEvent} (hbody : event.isBody = true → s.bodyCallback = t.bodyCallback) :
    (s.callback env event).map (·.parser) = (t.callback env event).map (·.parser) := by
  obtain ⟨p, b, r⟩ := s
  obtain ⟨p', b', r'⟩ := t
  dsimp only at hparser hbody
  subst hparser
  simp only [callback]
  split_ifs
  · rfl
  · cases event with
    | headersComplete method major minor upgrade =>
        exact takeBody_sameParser
          { { p with upgrade := upgrade } with
            req := { p.req with
              method := method
              majorVersion := major
              minorVersion := minor }.parseClientIP } b b' r r' _
    | body data =>
        have hsame : b = b' := hbody rfl
        subst hsame
        cases b with
        | onBody => rfl
        | onMPartBody =>
            simp only [onMPartBody]
            split_ifs <;> rfl
    | _ => rfl

theorem feed_sameParser (env : HttpEnv) {s t : HttpParse} (hparser : s.parser = t.parser)
    {events : List HttpEvent} (hagree : BodiesAgree env s t events) :
    (s.feed env events).map (·.parser) = (t.feed env events).map (·.parser) := by
  induction events generalizing s t with
  | nil => simp [feed_nil, hparser]
  | cons event rest ih =>
      obtain ⟨hbody, hrest⟩ := hagree
      have hone := callback_sameParser env hparser hbody
      rw [feed_cons, feed_cons]
      cases hs : s.callback env event with
      | none =>
          cases ht : t.callback env event with
          | none => rfl
          | some t' => simp [hs, ht] at hone
      | some s' =>
          cases ht : t.callback env event with
          | none => simp [hs, ht] at hone
          | some t' =>
              rw [hs, ht] at hrest
              have hparser' : s'.parser = t'.parser := by simpa [hs, ht] using hone
              exact ih hparser' hrest

theorem afterFeed_sameParser {s t : HttpParse} (hparser : s.parser = t.parser)
    (accepted connClosed : Bool) :
    (s.afterFeed accepted connClosed).1.parser = (t.afterFeed accepted connClosed).1.parser ∧
      (s.afterFeed accepted connClosed).2 = (t.afterFeed accepted connClosed).2 := by
  unfold afterFeed dispatched
  rw [hparser]
  split_ifs <;> exact ⟨by simp [hparser], rfl⟩

theorem afterFeed_bodyCallback (s : HttpParse) (accepted connClosed : Bool) :
    (s.afterFeed accepted connClosed).1.bodyCallback = s.bodyCallback := by
  unfold afterFeed
  split_ifs <;> rfl

end HttpParse

namespace SharedRun

/-- Each connection is as it is in a run of its own. -/
structure Isolated (s : SharedRun) (alone : ℕ → HttpConns) : Prop where
  crashed : s.conns.crashed = false
  aloneCrashed : ∀ conn, (alone conn).crashed = false
  parsers : ∀ conn, (alone conn).parsers conn = s.conns.parsers conn
  dispatched : ∀ conn, (alone conn).dispatched conn = s.conns.dispatched conn
  own : ∀ conn, (alone conn).bodyCallback = s.own conn

theorem Isolated.init : Isolated .init fun _ => .init :=
  ⟨rfl, fun _ => rfl, fun _ => rfl, fun _ => rfl, fun _ => rfl⟩

theorem Isolated.step {env : HttpEnv} {s : SharedRun} {alone : ℕ → HttpConns}
    (h : s.Isolated alone) {a : HttpRecv} (hundisturbed : s.Undisturbed env a)
    {s' : SharedRun} (hstep : s.step env a = some s') :
    s'.Isolated (Function.update alone a.conn ((alone a.conn).recv env a)) := by
  obtain ⟨hcrashed, haloneCrashed, hparsers, hdispatched, hown⟩ := h
  rw [SharedRun.step, Option.some.injEq] at hstep
  subst hstep
  cases hp : s.conns.parsers a.conn with
  | none =>
      have hsame : s.conns.recv env a = s.conns := by
        simp [HttpConns.recv, hcrashed, hp]
      have hsame' : (alone a.conn).recv env a = alone a.conn := by
        simp [HttpConns.recv, haloneCrashed, hparsers, hp]
      rw [hsame, hsame', Function.update_eq_self]
      exact ⟨hcrashed, haloneCrashed, hparsers, hdispatched, hown⟩
  | some p =>
      obtain ⟨hagree, hsome⟩ := hundisturbed p hp
      obtain ⟨t, ht⟩ := Option.ne_none_iff_exists'.mp hsome
      have hfeed := HttpParse.feed_sameParser env (s := ⟨p, s.conns.bodyCallback, false⟩)
        (t := ⟨p, s.own a.conn, false⟩) rfl hagree
      rw [ht] at hfeed
      obtain ⟨t', ht', hparser⟩ := Option.map_eq_some_iff.mp hfeed
      obtain ⟨hafter, houtcome⟩ :=
        HttpParse.afterFeed_sameParser hparser a.chunk.accepted a.closes
      set shared := t'.afterFeed a.chunk.accepted a.closes with hshared
      set own := t.afterFeed a.chunk.accepted a.closes with hownAfter
      have hbody : own.1.bodyCallback = t.bodyCallback :=
        t.afterFeed_bodyCallback a.chunk.accepted a.closes
      have hrecv : s.conns.recv env a =
          { s.conns with
            bodyCallback := shared.1.bodyCallback
            parsers := Function.update s.conns.parsers a.conn
              (shared.2.left a.closes shared.1.parser)
            dispatched := Function.update s.conns.dispatched a.conn
              (s.conns.dispatched a.conn ++ shared.2.reqs) } := by
        simp [HttpConns.recv, hcrashed, hp, HttpParse.execute, ht', hshared]
      have hrecv' : (alone a.conn).recv env a =
          { alone a.conn with
            bodyCallback := own.1.bodyCallback
            parsers := Function.update (alone a.conn).parsers a.conn
              (own.2.left a.closes own.1.parser)
            dispatched := Function.update (alone a.conn).dispatched a.conn
              ((alone a.conn).dispatched a.conn ++ own.2.reqs) } := by
        simp [HttpConns.recv, haloneCrashed, hparsers, hp, hown, HttpParse.execute, ht,
          hownAfter]
      rw [hrecv, hrecv']
      simp only [ht]
      constructor
      · exact hcrashed
      · intro conn
        by_cases hconn : conn = a.conn
        · subst hconn
          simp [haloneCrashed]
        · simp [hconn, haloneCrashed]
      · intro conn
        by_cases hconn : conn = a.conn
        · subst hconn
          simp [hafter, houtcome]
        · simp [hconn, hparsers]
      · intro conn
        by_cases hconn : conn = a.conn
        · subst hconn
          simp [houtcome, hdispatched]
        · simp [hconn, hdispatched]
      · intro conn
        by_cases hconn : conn = a.conn
        · subst hconn
          simp [hbody]
        · simp [hconn, hown]

theorem Isolated.run {env : HttpEnv} {s : SharedRun} {alone : ℕ → HttpConns}
    (h : s.Isolated alone) {actions : List HttpRecv}
    (hguarded : Guarded (SharedRun.step env) (Undisturbed env) s actions) (conn : ℕ) :
    ((actions.filter (·.conn = conn)).foldl (HttpConns.recv env)
        (alone conn)).dispatched conn =
      (actions.foldl (HttpConns.recv env) s.conns).dispatched conn := by
  induction actions generalizing s alone with
  | nil => exact h.dispatched conn
  | cons a rest ih =>
      obtain ⟨s', hstep⟩ : ∃ s', s.step env a = some s' := ⟨_, rfl⟩
      obtain ⟨hundisturbed, hrest⟩ := hguarded s' hstep
      have hconns : s'.conns = s.conns.recv env a := by
        rw [SharedRun.step, Option.some.injEq] at hstep
        rw [← hstep]
      have hlater := ih (h.step hundisturbed hstep) hrest
      rw [List.foldl_cons, ← hconns, ← hlater]
      by_cases hconn : a.conn = conn
      · subst hconn
        rw [List.filter_cons_of_pos (by simp), List.foldl_cons, Function.update_self]
      · rw [List.filter_cons_of_neg (by simp [hconn]),
          Function.update_of_ne (Ne.symm hconn)]

end SharedRun

namespace HttpConns

/-- **Connections on their own**: where every body goes to the callback that its own
connection has chosen, and nothing ends the process, the requests of each connection are
those of a run in which no other connection sends anything. -/
theorem run_undisturbed (env : HttpEnv) {actions : List HttpRecv}
    (hguarded : Guarded (SharedRun.step env) (SharedRun.Undisturbed env) .init actions)
    (conn : ℕ) :
    (run env actions).dispatched conn =
      (run env (actions.filter (·.conn = conn))).dispatched conn :=
  (SharedRun.Isolated.init.run hguarded conn).symm

def postHead (conn : ℕ) (lines : List (Bytes × Bytes)) : HttpRecv where
  conn := conn
  chunk := .ofEvents
    ([.messageBegin, .url (ascii "/")] ++
      lines.flatMap (fun line => [.headerField line.1, .headerValue line.2]) ++
      [.headersComplete 3 1 1 false])
  closes := false

def postBody (conn : ℕ) (data : Bytes) : HttpRecv where
  conn := conn
  chunk := .ofEvents [.body data, .messageComplete]
  closes := false

def multipartLine : Bytes × Bytes :=
  (ascii "Content-Type", ascii "multipart/form-data; boundary=b")

theorem run_undisturbed_one_behind_the_other :
    (run .ofPaths [postHead 1 [multipartLine], postBody 1 (ascii "--b--"), postHead 0 [],
        postBody 0 (ascii "x")]).dispatched 0 =
      (run .ofPaths ([postHead 1 [multipartLine], postBody 1 (ascii "--b--"), postHead 0 [],
        postBody 0 (ascii "x")].filter (·.conn = 0))).dispatched 0 :=
  run_undisturbed .ofPaths (by decide +kernel) 0

/-- Headers of a multipart request come between the headers and the body of another
connection's request, and nothing is dispatched any more. -/
theorem not_undisturbed :
    ¬∀ (env : HttpEnv) (actions : List HttpRecv) (conn : ℕ),
      (run env actions).dispatched conn =
        (run env (actions.filter (·.conn = conn))).dispatched conn := by
  intro hsame
  have hzero := hsame .ofPaths
    [postHead 0 [], postHead 1 [multipartLine], postBody 0 (ascii "x")] 0
  have hlength := congrArg List.length hzero
  revert hlength
  decide +kernel

end HttpConns

end CommonComponent
