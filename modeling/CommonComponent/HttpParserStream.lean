import CommonComponent.HttpParser
import Mathlib.Tactic

/-!
# Dispatching at the end of a chunk

`Execute` dispatches when the library has gone through a chunk.  `dispatchAll` is what it
does over the chunks of a connection, and `stream` dispatches at each end of a request.
The two are the same where no chunk goes on behind the end of a request; the call for
the beginning of the next request does no harm.
-/

namespace CommonComponent

/-- The events of a chunk end with the request that ends in it. -/
def Separated : List HttpEvent → Prop
  | [] => True
  | event :: rest =>
      if event = .messageComplete then rest = [] ∨ rest = [.messageBegin]
      else Separated rest

instance Separated.decidable : DecidablePred Separated
  | [] => isTrue trivial
  | event :: rest =>
      have := Separated.decidable rest
      decidable_of_iff (if event = .messageComplete then rest = [] ∨ rest = [.messageBegin]
        else Separated rest) Iff.rfl

theorem separated_of_not_mem {events : List HttpEvent}
    (h : .messageComplete ∉ events) : Separated events := by
  induction events with
  | nil => trivial
  | cons event rest ih =>
      rw [List.mem_cons, not_or] at h
      rw [Separated, if_neg (Ne.symm h.1)]
      exact ih h.2

theorem separated_append_iff {events more : List HttpEvent}
    (h : .messageComplete ∉ events) :
    Separated (events ++ .messageComplete :: more) ↔
      more = [] ∨ more = [.messageBegin] := by
  induction events with
  | nil => simp [Separated]
  | cons event rest ih =>
      rw [List.mem_cons, not_or] at h
      rw [List.cons_append, Separated, if_neg (Ne.symm h.1)]
      exact ih h.2

namespace HttpParse

/-- The requests that are dispatched over the chunks of a connection, of each of which
the library makes these calls.  Each chunk is accepted, and no handler closes. -/
def dispatchAll (env : HttpEnv) : HttpParse → List (List HttpEvent) → List Req
  | _, [] => []
  | s, events :: rest =>
      match s.execute env false (.ofEvents events) with
      | none => []
      | some (t, outcome) => outcome.reqs ++ dispatchAll env t rest

/-- The same with a dispatch at each end of a request. -/
def stream (env : HttpEnv) : HttpParse → List HttpEvent → List Req
  | _, [] => []
  | s, event :: rest =>
      match s.callback env event with
      | none => []
      | some t =>
          if event = .messageComplete ∧ t.parser.failed = false then
            t.parser.req.finish :: stream env (t.dispatched false) rest
          else stream env t rest

structure Reading (s : HttpParse) : Prop where
  complete : s.parser.complete = false
  upgrade : s.parser.upgrade = false

theorem Reading.init : init.Reading := ⟨rfl, rfl⟩

theorem Reading.callback {env : HttpEnv} {s t : HttpParse} {event : HttpEvent}
    (hs : s.Reading) (h : s.callback env event = some t)
    (hevent : event ≠ .messageComplete) (hplain : event.isUpgrade = false) :
    t.Reading := by
  have hcalled := callback_called h
  constructor
  · exact (hcalled.complete hevent).trans hs.complete
  · exact hcalled.upgrade hplain hs.upgrade

theorem Reading.feed {env : HttpEnv} {s t : HttpParse} {events : List HttpEvent}
    (hs : s.Reading) (h : s.feed env events = some t)
    (hevents : .messageComplete ∉ events)
    (hplain : ∀ event ∈ events, event.isUpgrade = false) : t.Reading := by
  apply feed_keeps _ hs h
  intro event hmem s t hs hcall
  have hevent : event ≠ .messageComplete := fun heq => hevents (heq ▸ hmem)
  exact hs.callback hcall hevent (hplain event hmem)

/-! ## A failed parser -/

theorem not_failed_of_feed {env : HttpEnv} {s t : HttpParse} {events : List HttpEvent}
    (h : s.feed env events = some t) (ht : t.parser.failed = false) :
    s.parser.failed = false := by
  by_contra hfailed
  rw [Bool.not_eq_false] at hfailed
  rw [feed_of_failed env hfailed, Option.some.injEq] at h
  rw [← h, hfailed] at ht
  cases ht

/-- A parse that has not failed has seen the end of the request. -/
theorem feed_complete {env : HttpEnv} {s t : HttpParse} {events : List HttpEvent}
    (h : s.feed env events = some t) (ht : t.parser.failed = false)
    (hend : s.parser.complete = true ∨ .messageComplete ∈ events) :
    t.parser.complete = true := by
  induction events generalizing s with
  | nil =>
      cases h
      exact hend.resolve_right List.not_mem_nil
  | cons event rest ih =>
      have hs := not_failed_of_feed h ht
      obtain ⟨mid, hmid, hrest⟩ := feed_cons_eq_some h
      by_cases hevent : event = .messageComplete
      · subst hevent
        simp only [HttpParse.callback, hs, Bool.false_eq_true, if_false,
          Option.some.injEq] at hmid
        exact ih hrest (.inl (by rw [← hmid]; rfl))
      · have hkept := (callback_called hmid).complete hevent
        rw [List.mem_cons, or_iff_right (Ne.symm hevent), ← hkept] at hend
        exact ih hrest hend

theorem feed_upgrade {env : HttpEnv} {s t : HttpParse} {events : List HttpEvent}
    (h : s.feed env events = some t) (hs : s.parser.upgrade = false)
    (hplain : ∀ event ∈ events, event.isUpgrade = false) : t.parser.upgrade = false := by
  apply feed_keeps _ hs h
  intro event hmem s t hs hcall
  exact (callback_called hcall).upgrade (hplain event hmem) hs

theorem stream_of_failed (env : HttpEnv) {s : HttpParse} (h : s.parser.failed = true)
    (events : List HttpEvent) : s.stream env events = [] := by
  induction events with
  | nil => rfl
  | cons event rest ih =>
      have hstop : s.callback env event = some s := by simp [HttpParse.callback, h]
      simp [stream, hstop, h, ih]

theorem dispatchAll_of_failed (env : HttpEnv) {s : HttpParse}
    (h : s.parser.failed = true) (hupgrade : s.parser.upgrade = false)
    (chunks : List (List HttpEvent)) : s.dispatchAll env chunks = [] := by
  induction chunks with
  | nil => rfl
  | cons events rest ih =>
      have hexecute : s.execute env false (.ofEvents events) = some (s, .nothing) := by
        obtain ⟨⟨req, name, complete, upgrade, failed⟩, bodyCallback, record⟩ := s
        dsimp only at h hupgrade
        subst h
        subst hupgrade
        rw [execute, HttpChunk.ofEvents, feed_of_failed env rfl]
        rfl
      simp [dispatchAll, hexecute, HttpOutcome.reqs, ih]

/-! ## The record -/

theorem takeBody_recordPartMsg (s : HttpParse) (kind : BodyKind) :
    s.recordPartMsg.takeBody kind = (s.takeBody kind).map recordPartMsg := by
  cases kind with
  | plain => rfl
  | urlEncoded => rfl
  | multipart boundary =>
      cases boundary with
      | none => rfl
      | some boundary =>
          simp only [takeBody, initMPart]
          split_ifs <;> rfl

theorem callback_recordPartMsg (env : HttpEnv) (s : HttpParse) (event : HttpEvent) :
    s.recordPartMsg.callback env event = (s.callback env event).map recordPartMsg := by
  unfold callback
  split_ifs with h h' h'
  · rfl
  · exact absurd h h'
  · exact absurd h' h
  · cases event with
    | headersComplete method major minor upgrade =>
        let flagged : HttpParse :=
          { s with parser := { s.parser with upgrade := upgrade } }
        exact takeBody_recordPartMsg (flagged.copyHead method major minor)
          (bodyKind flagged.parser.req.headers)
    | body data =>
        obtain ⟨parser, bodyCallback, record⟩ := s
        cases bodyCallback with
        | onBody => rfl
        | onMPartBody =>
            by_cases hnone : parser.req.boundary = none ∧ data ≠ []
            · simp [recordPartMsg, onMPartBody, hnone]
            · simp [recordPartMsg, onMPartBody, hnone]
    | _ => rfl

theorem stream_recordPartMsg (env : HttpEnv) (s : HttpParse) (events : List HttpEvent) :
    s.recordPartMsg.stream env events = s.stream env events := by
  induction events generalizing s with
  | nil => rfl
  | cons event rest ih =>
      simp only [stream, callback_recordPartMsg]
      cases s.callback env event with
      | none => rfl
      | some t =>
          simp only [Option.map_some, ih]
          rfl

/-! ## One chunk -/

theorem stream_append (env : HttpEnv) (s : HttpParse) {events : List HttpEvent}
    (h : .messageComplete ∉ events) (more : List HttpEvent) :
    s.stream env (events ++ more) =
      ((s.feed env events).map fun t => t.stream env more).getD [] := by
  induction events generalizing s with
  | nil => rfl
  | cons event rest ih =>
      rw [List.mem_cons, not_or] at h
      rw [List.cons_append, stream, feed_cons]
      cases s.callback env event with
      | none => rfl
      | some t =>
          have hevent : ¬(event = .messageComplete ∧ t.parser.failed = false) :=
            fun hboth => h.1 hboth.1.symm
          simp only [if_neg hevent, Option.bind_some]
          exact ih t h.2

theorem execute_of_not_mem (env : HttpEnv) {s : HttpParse} (hs : s.Reading)
    {events : List HttpEvent} (hevents : .messageComplete ∉ events)
    (hplain : ∀ event ∈ events, event.isUpgrade = false) :
    s.execute env false (.ofEvents events) =
      (s.feed env events).map fun t => (t, .nothing) := by
  rw [execute, HttpChunk.ofEvents]
  cases hfeed : s.feed env events with
  | none => rfl
  | some t =>
      have ht := hs.feed hfeed hevents hplain
      obtain ⟨⟨req, name, complete, upgrade, failed⟩, bodyCallback, record⟩ := t
      obtain ⟨hcomplete, hupgrade⟩ := ht
      dsimp only at hcomplete hupgrade
      subst hcomplete
      subst hupgrade
      cases failed <;> rfl

theorem afterFeed_complete {s : HttpParse} (hcomplete : s.parser.complete = true)
    (hupgrade : s.parser.upgrade = false) (hfailed : s.parser.failed = false) :
    s.afterFeed true false = (s.dispatched false, .httpReq s.parser.req.finish) := by
  simp [afterFeed, hcomplete, hupgrade, hfailed]

/-- A chunk with the end of a request, and perhaps the beginning of the next one. -/
theorem dispatchAll_complete (env : HttpEnv) {s : HttpParse} (hs : s.Reading)
    {events more : List HttpEvent} (hevents : .messageComplete ∉ events)
    (hplain : ∀ event ∈ events, event.isUpgrade = false)
    (hmore : more = [] ∨ more = [.messageBegin]) (rest : List (List HttpEvent))
    (ih : ∀ {t : HttpParse}, t.Reading →
      t.dispatchAll env rest = t.stream env rest.flatten) :
    s.dispatchAll env ((events ++ .messageComplete :: more) :: rest) =
      s.stream env (events ++ .messageComplete :: more ++ rest.flatten) := by
  rw [List.append_assoc, stream_append env s hevents, dispatchAll, execute,
    HttpChunk.ofEvents, feed_append]
  cases hfeed : s.feed env events with
  | none => rfl
  | some t =>
      have ht := hs.feed hfeed hevents hplain
      rw [Option.bind_some, Option.map_some, Option.getD_some]
      cases hfailed : t.parser.failed with
      | true =>
          rw [feed_of_failed env hfailed, stream_of_failed env hfailed]
          have hall := dispatchAll_of_failed env hfailed ht.upgrade
            ((.messageComplete :: more) :: rest)
          rw [dispatchAll, execute, HttpChunk.ofEvents, feed_of_failed env hfailed] at hall
          exact hall
      | false =>
          set u := t.onMessageComplete env with hu
          have hcall : t.callback env .messageComplete = some u := by
            simp [callback, hfailed, hu]
          have hfailed' : u.parser.failed = false := hfailed
          have hreading : (u.dispatched false).Reading := ⟨rfl, ht.upgrade⟩
          simp only [List.cons_append, feed_cons, stream, hcall, Option.bind_some,
            hfailed', and_self, if_true]
          rcases hmore with rfl | rfl
          · simp only [feed_nil, Option.map_some,
              afterFeed_complete (s := u) rfl ht.upgrade hfailed, HttpOutcome.reqs,
              List.nil_append, List.singleton_append, ih hreading]
          · have hbegin : u.callback env .messageBegin = some u.onMessageBegin := by
              simp [callback, hfailed']
            have hbegin' : (u.dispatched false).callback env .messageBegin =
                some (u.dispatched false).onMessageBegin := by
              simp [callback, dispatched, hfailed']
            have hreading' : (u.onMessageBegin.dispatched false).Reading :=
              ⟨rfl, ht.upgrade⟩
            have hrecord : (u.onMessageBegin.dispatched false).recordPartMsg =
                (u.dispatched false).onMessageBegin := rfl
            simp only [feed_cons, hbegin, Option.bind_some, feed_nil, Option.map_some,
              afterFeed_complete (s := u.onMessageBegin) rfl ht.upgrade hfailed,
              HttpOutcome.reqs, ih hreading', List.cons_append,
              List.nil_append, stream, hbegin', reduceCtorEq, false_and, if_false,
              ← hrecord, stream_recordPartMsg]
            rfl

/-- **Chunks of one request each, or parts of one**: it makes no difference how the
calls are cut into chunks. -/
theorem dispatchAll_eq_stream (env : HttpEnv) {s : HttpParse} (hs : s.Reading)
    (chunks : List (List HttpEvent)) (hseparated : ∀ chunk ∈ chunks, Separated chunk)
    (hplain : ∀ event ∈ chunks.flatten, event.isUpgrade = false) :
    s.dispatchAll env chunks = s.stream env chunks.flatten := by
  induction chunks generalizing s with
  | nil => rfl
  | cons chunk rest ih =>
      rw [List.forall_mem_cons] at hseparated
      rw [List.flatten_cons, List.forall_mem_append] at hplain
      have hrest : ∀ {t : HttpParse}, t.Reading →
          t.dispatchAll env rest = t.stream env rest.flatten := fun ht =>
        ih ht hseparated.2 hplain.2
      rw [List.flatten_cons]
      by_cases hmem : .messageComplete ∈ chunk
      · obtain ⟨events, more, rfl, hevents⟩ := List.eq_append_cons_of_mem hmem
        have hmore := (separated_append_iff hevents).mp hseparated.1
        have hplain' : ∀ event ∈ events, event.isUpgrade = false := fun event hevent =>
          hplain.1 event (List.mem_append_left _ hevent)
        exact dispatchAll_complete env hs hevents hplain' hmore rest hrest
      · rw [dispatchAll, execute_of_not_mem env hs hmem hplain.1, stream_append env s hmem]
        cases hfeed : s.feed env chunk with
        | none => rfl
        | some t =>
            have ht := hs.feed hfeed hmem hplain.1
            simp [HttpOutcome.reqs, hrest ht]

end HttpParse

end CommonComponent
