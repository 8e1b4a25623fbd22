import CommonComponent.HttpParserChunks
import Mathlib.Tactic

/-!
# Requests one behind the other

A client need not wait for an answer before it sends its next request, so the end of one
request and the beginning of the next can lie in one chunk.  That a request is complete
is a flag, which `Execute` reads behind the chunk; by then the callbacks have put what
follows into the same `Req`, and what is cleared behind the dispatch is all of it.

Each request is dispatched as it is on its own exactly if no chunk goes on behind the end
of a request, and no request is hurt by its own pieces.  The proof that the first is
needed counts: the urls of all that is dispatched are together as long as those of the
requests, and an url that is overwritten is missing.
-/

namespace CommonComponent

def HttpEvent.urlLength : HttpEvent → ℕ
  | .url data => data.length
  | _ => 0

def urlLengths (events : List HttpEvent) : ℕ := (events.map HttpEvent.urlLength).sum

def dispatchedLengths (reqs : List Req) : ℕ := (reqs.map fun req => req.url.length).sum

@[simp] theorem urlLengths_nil : urlLengths [] = 0 := rfl

@[simp] theorem urlLengths_cons (event : HttpEvent) (events : List HttpEvent) :
    urlLengths (event :: events) = event.urlLength + urlLengths events := by
  simp [urlLengths]

@[simp] theorem urlLengths_append (events more : List HttpEvent) :
    urlLengths (events ++ more) = urlLengths events + urlLengths more := by
  simp [urlLengths]

@[simp] theorem dispatchedLengths_append (reqs more : List Req) :
    dispatchedLengths (reqs ++ more) = dispatchedLengths reqs + dispatchedLengths more := by
  simp [dispatchedLengths]

namespace HttpArrival

theorem urlLengths_events (a : HttpArrival) :
    urlLengths a.events = a.url.whole.length := by
  have hurls : ∀ pieces : List Bytes,
      urlLengths (pieces.map .url) = pieces.flatten.length := by
    intro pieces
    induction pieces with
    | nil => rfl
    | cons data rest ih => simp [ih, HttpEvent.urlLength]
  have hlines : ∀ lines : List (HttpToken × HttpToken),
      urlLengths (lines.flatMap lineEvents) = 0 := by
    intro lines
    simp only [urlLengths, List.sum_eq_zero_iff, List.mem_map]
    rintro length ⟨event, hevent, rfl⟩
    simp only [List.mem_flatMap, lineEvents, List.mem_append, List.mem_map] at hevent
    obtain ⟨line, -, ⟨data, -, rfl⟩ | ⟨data, -, rfl⟩⟩ := hevent <;> rfl
  have hbodies : ∀ pieces : List Bytes, urlLengths (pieces.map .body) = 0 := by
    intro pieces
    induction pieces with
    | nil => rfl
    | cons data rest ih => simp [ih, HttpEvent.urlLength]
  simp [events, headEvents, hurls, hlines, hbodies, HttpEvent.urlLength, HttpToken.whole]

theorem events_eq_cons (a : HttpArrival) :
    ∃ tail, a.headEvents ++ a.body.map .body =
      HttpEvent.messageBegin :: .url a.url.first :: tail := by
  simp [headEvents, HttpToken.pieces]

end HttpArrival

namespace HttpParse

variable {env : HttpEnv} {s t : HttpParse}

/-- The url is one of the pieces, or the one that was there. -/
theorem feed_url_le {events : List HttpEvent} (h : s.feed env events = some t) :
    t.parser.req.url.length ≤ s.parser.req.url.length + urlLengths events := by
  induction events generalizing s with
  | nil =>
      cases h
      exact Nat.le_add_right _ _
  | cons event rest ih =>
      obtain ⟨mid, hmid, hrest⟩ := feed_cons_eq_some h
      have hle := ih hrest
      rw [urlLengths_cons]
      rcases (callback_called hmid).url with hsame | hurl
      · rw [hsame] at hle
        omega
      · have hlength : event.urlLength = mid.parser.req.url.length := by
          rw [hurl]
          rfl
        omega

/-- With a piece of an url behind it, the url that was there is gone. -/
theorem feed_url_le_of_mem {events : List HttpEvent} {data : Bytes}
    (h : s.feed env events = some t) (hmem : .url data ∈ events)
    (ht : t.parser.failed = false) : t.parser.req.url.length ≤ urlLengths events := by
  induction events generalizing s with
  | nil => cases hmem
  | cons event rest ih =>
      obtain ⟨mid, hmid, hrest⟩ := feed_cons_eq_some h
      rw [urlLengths_cons]
      rcases List.mem_cons.mp hmem with rfl | hrest'
      · have hle := feed_url_le hrest
        have hs := not_failed_of_feed h ht
        have hurl : mid.parser.req.url = data := by
          simp only [callback, hs, Bool.false_eq_true, if_false, Option.some.injEq] at hmid
          rw [← hmid]
          simp [onURL, setReq, recordPartMsg]
        rw [hurl] at hle
        exact hle
      · have hle := ih hrest hrest'
        omega

/-- What a chunk dispatches was in the `Req`, which is empty then. -/
theorem afterFeed_url (s : HttpParse) (accepted : Bool) :
    dispatchedLengths (s.afterFeed accepted false).2.reqs +
      (s.afterFeed accepted false).1.parser.req.url.length = s.parser.req.url.length := by
  unfold afterFeed
  split_ifs <;> simp [dispatchedLengths, HttpOutcome.reqs, dispatched, Req.reset, Req.init]

theorem dispatchedLengths_le (env : HttpEnv) (s : HttpParse)
    (chunks : List (List HttpEvent)) :
    dispatchedLengths (s.dispatchAll env chunks) ≤
      s.parser.req.url.length + urlLengths chunks.flatten := by
  induction chunks generalizing s with
  | nil => exact Nat.zero_le _
  | cons chunk rest ih =>
      rw [dispatchAll, execute, HttpChunk.ofEvents, List.flatten_cons, urlLengths_append]
      cases hfeed : s.feed env chunk with
      | none => exact Nat.zero_le _
      | some t =>
          have hle := feed_url_le hfeed
          have hout := t.afterFeed_url true
          have hrest := ih (t.afterFeed true false).1
          simp only [Option.map_some, dispatchedLengths_append]
          omega

theorem dispatchAll_cons_of_failed (env : HttpEnv) {chunk : List HttpEvent}
    (hfeed : s.feed env chunk = some t) (hfailed : t.parser.failed = true)
    (hupgrade : t.parser.upgrade = false) (rest : List (List HttpEvent)) :
    s.dispatchAll env (chunk :: rest) = [] := by
  have hnothing := dispatchAll_of_failed env hfailed hupgrade (chunk :: rest)
  rw [dispatchAll, execute, HttpChunk.ofEvents, feed_of_failed env hfailed] at hnothing
  rw [dispatchAll, execute, HttpChunk.ofEvents, hfeed]
  exact hnothing

end HttpParse

theorem first_append_inj {α : Type*} {a : α} {pre pre' post post' : List α}
    (h : pre ++ a :: post = pre' ++ a :: post') (hpre : a ∉ pre) (hpre' : a ∉ pre') :
    pre = pre' ∧ post = post' := by
  induction pre generalizing pre' with
  | nil =>
      cases pre' with
      | nil => simpa using h
      | cons b pre' =>
          rw [List.nil_append, List.cons_append, List.cons.injEq] at h
          exact absurd (List.mem_cons.mpr (.inl h.1)) hpre'
  | cons b pre ih =>
      cases pre' with
      | nil =>
          rw [List.nil_append, List.cons_append, List.cons.injEq] at h
          exact absurd (List.mem_cons.mpr (.inl h.1.symm)) hpre
      | cons c pre' =>
          rw [List.cons_append, List.cons_append, List.cons.injEq] at h
          rw [List.mem_cons, not_or] at hpre hpre'
          obtain ⟨rfl, rfl⟩ := ih h.2 hpre.2 hpre'.2
          exact ⟨by rw [h.1], rfl⟩

theorem split_of_not_mem {α : Type*} {a : α} {chunk rest post more : List α}
    (h : chunk ++ rest = post ++ a :: more) (hnot : a ∉ chunk) :
    ∃ left, post = chunk ++ left ∧ rest = left ++ a :: more := by
  rcases List.append_eq_append_iff.mp h with
    ⟨left, hpost, hrest⟩ | ⟨tail, hchunk, htail⟩
  · exact ⟨left, hpost, hrest⟩
  · cases tail with
    | nil => exact ⟨[], by simpa using hchunk.symm, by simpa using htail.symm⟩
    | cons b tail =>
        rw [List.cons_append, List.cons.injEq] at htail
        exact absurd (by simp [hchunk, htail.1]) hnot

/-- What is left of requests behind the end of one, and what a chunk has of it. -/
theorem HttpArrival.behind {arrivals : List HttpArrival} {more rest : List HttpEvent}
    (h : more ++ rest = arrivals.flatMap HttpArrival.events) :
    (more = [] ∨ more = [.messageBegin]) ∧ (rest = [] ∨
      ∃ (post : List HttpEvent) (later : List HttpArrival),
        rest = post ++ .messageComplete :: later.flatMap HttpArrival.events ∧
          .messageComplete ∉ post ∧ 0 < urlLengths post) ∨
      ∃ data, .url data ∈ more := by
  cases arrivals with
  | nil =>
      rw [List.flatMap_nil, List.append_eq_nil_iff] at h
      exact .inl ⟨.inl h.1, .inl h.2⟩
  | cons a arrivals =>
      obtain ⟨tail, htail⟩ := a.events_eq_cons
      have hnot := a.not_mem_headEvents_bodies
      have hfirst : 0 < a.url.first.length := List.length_pos_iff.mpr a.url_ne
      rw [htail] at hnot
      rw [List.flatMap_cons, HttpArrival.events, htail, List.append_assoc,
        List.singleton_append] at h
      cases more with
      | nil =>
          refine .inl ⟨.inl rfl, .inr ⟨_, arrivals, h, hnot, ?_⟩⟩
          simp only [urlLengths_cons, HttpEvent.urlLength]
          omega
      | cons event more =>
          cases more with
          | nil =>
              simp only [List.cons_append, List.nil_append, List.cons.injEq] at h
              refine .inl ⟨.inr (by rw [h.1]), .inr ⟨.url a.url.first :: tail, arrivals, h.2,
                fun hmem => hnot (List.mem_cons_of_mem _ hmem), ?_⟩⟩
              simp only [urlLengths_cons, HttpEvent.urlLength]
              omega
          | cons event' more =>
              simp only [List.cons_append, List.cons.injEq] at h
              exact .inr ⟨a.url.first, by simp [h.2.1]⟩

namespace HttpParse

variable {env : HttpEnv} {s t : HttpParse}

/-- Where a chunk goes on behind the end of a request, an url is overwritten; `n` is what
has come of the url of the request at hand. -/
theorem dispatchedLengths_lt (env : HttpEnv) {s : HttpParse} (hs : s.Reading) {n : ℕ}
    (hn : s.parser.req.url.length ≤ n) {chunks : List (List HttpEvent)}
    {post : List HttpEvent} {arrivals : List HttpArrival}
    (hpost : .messageComplete ∉ post)
    (hsplit : chunks.flatten =
      post ++ .messageComplete :: arrivals.flatMap HttpArrival.events)
    (hplain : ∀ event ∈ chunks.flatten, event.isUpgrade = false)
    (hpos : 0 < n + urlLengths post) (hcross : ∃ chunk ∈ chunks, ¬Separated chunk) :
    dispatchedLengths (s.dispatchAll env chunks) < n + urlLengths chunks.flatten := by
  induction chunks generalizing s n post arrivals with
  | nil => simp at hsplit
  | cons chunk rest ih =>
      rw [List.flatten_cons] at hsplit hplain ⊢
      rw [List.forall_mem_append] at hplain
      have hall : 0 < n + urlLengths (chunk ++ rest.flatten) := by
        rw [hsplit, urlLengths_append]
        omega
      rw [urlLengths_append] at hall ⊢
      have hcross' : Separated chunk → ∃ chunk ∈ rest, ¬Separated chunk := by
        intro hseparated
        obtain ⟨crossing, hcrossing, hnot⟩ := hcross
        rcases List.mem_cons.mp hcrossing with rfl | hcrossing
        · exact absurd hseparated hnot
        · exact ⟨crossing, hcrossing, hnot⟩
      cases hfeed : s.feed env chunk with
      | none =>
          rw [dispatchAll, execute, HttpChunk.ofEvents, hfeed]
          exact hall
      | some t =>
          have hupgrade := feed_upgrade hfeed hs.upgrade hplain.1
          have hle := feed_url_le hfeed
          by_cases hmem : .messageComplete ∈ chunk
          · cases hfailed : t.parser.failed with
            | true =>
                rw [dispatchAll_cons_of_failed env hfeed hfailed hupgrade]
                exact hall
            | false =>
                have hcomplete := feed_complete hfeed hfailed (.inr hmem)
                have hout := afterFeed_complete hcomplete hupgrade hfailed
                have hreqs : dispatchedLengths
                    (HttpOutcome.httpReq t.parser.req.finish).reqs =
                      t.parser.req.url.length := by
                  simp [dispatchedLengths, HttpOutcome.reqs]
                rw [dispatchAll, execute, HttpChunk.ofEvents, hfeed, Option.map_some, hout]
                simp only [dispatchedLengths_append]
                obtain ⟨events, more, rfl, hevents⟩ := List.eq_append_cons_of_mem hmem
                rw [List.append_assoc, List.cons_append] at hsplit
                obtain ⟨rfl, hmore⟩ := first_append_inj hsplit hevents hpost
                rcases HttpArrival.behind hmore with ⟨hsep, hbehind⟩ | ⟨data, hdata⟩
                · -- the chunk ends with the request, so the crossing is behind it
                  have hrest := hcross' ((separated_append_iff hevents).mpr hsep)
                  rcases hbehind with hnil | ⟨post', later, hsplit', hpost', hpos'⟩
                  · obtain ⟨crossing, hcrossing, hnot⟩ := hrest
                    rw [List.flatten_eq_nil_iff] at hnil
                    rw [hnil crossing hcrossing] at hnot
                    exact absurd trivial hnot
                  · have hlt := ih (s := t.dispatched false) ⟨rfl, hupgrade⟩ (n := 0)
                      (Nat.le_refl 0) hpost' hsplit' hplain.2 (by omega) hrest
                    omega
                · -- the piece of an url behind it has taken the place of what was there
                  obtain ⟨mid, -, hmid⟩ :=
                    Option.bind_eq_some_iff.mp ((feed_append env s _ _).symm.trans hfeed)
                  have hover := feed_url_le_of_mem hmid
                    (List.mem_cons_of_mem _ hdata) hfailed
                  have hrest : dispatchedLengths ((t.dispatched false).dispatchAll env rest) ≤
                      0 + urlLengths rest.flatten := dispatchedLengths_le env _ rest
                  simp only [urlLengths_cons, urlLengths_append, HttpEvent.urlLength]
                    at hover hpos ⊢
                  omega
          · obtain ⟨post', rfl, hrest⟩ := split_of_not_mem hsplit hmem
            have ht := hs.feed hfeed hmem hplain.1
            have hpost' : .messageComplete ∉ post' := fun h =>
              hpost (List.mem_append_right _ h)
            rw [urlLengths_append] at hpos
            have hlt := ih ht (n := n + urlLengths chunk) (by omega) hpost' hrest
              hplain.2 (by omega) (hcross' (separated_of_not_mem hmem))
            rw [dispatchAll, execute_of_not_mem env hs hmem hplain.1, hfeed]
            simp only [Option.map_some, HttpOutcome.reqs, List.nil_append]
            omega

def alone (env : HttpEnv) (a : HttpArrival) : List ReqContent :=
  (init.dispatchAll env [a.whole.events]).map Req.content

/-- The url, the headers and the body are those of this request. -/
structure IsOf (content : ReqContent) (a : HttpArrival) : Prop where
  url : content.url = a.url.whole
  headers : content.headers = headerMap a.lines
  body : content.body = (bodyKind (headerMap a.lines)).bodyOf a.body.flatten

theorem alone_eq (env : HttpEnv) (a : HttpArrival) :
    ∃ content, a.whole.served env = some content ∧ alone env a = [content] ∧
      IsOf content a := by
  have hflatten : [a.whole.events].flatten = a.whole.events := by simp
  have hone := a.whole.dispatchAll_eq env hflatten
  obtain ⟨content, hserved⟩ := Option.ne_none_iff_exists'.mp (a.served_whole_ne_none env)
  rw [hserved] at hone
  refine ⟨content, hserved, hone, ?_⟩
  obtain ⟨req, hreq, rfl⟩ := Option.map_eq_some_iff.mp hserved
  have hfields := HttpArrival.request_fields hreq
  refine ⟨?_, ?_, ?_⟩
  · have hurl : req.finish.url = a.whole.url.last := by rw [Req.finish_url, hfields.1]
    exact hurl.trans (by simp [HttpArrival.whole, HttpToken.uncut, HttpToken.last])
  · have hheaders : req.finish.headers = headerMap a.whole.arrivedLines := by
      rw [Req.finish_headers, hfields.2]
    rw [a.arrivedLines_whole] at hheaders
    exact hheaders
  · have hbody := HttpArrival.request_body rfl rfl hreq
    rw [a.arrivedLines_whole, a.flatten_body_whole] at hbody
    exact hbody

theorem dispatchedLengths_of_alone {env : HttpEnv} {reqs : List Req}
    {arrivals : List HttpArrival}
    (h : reqs.map Req.content = arrivals.flatMap (alone env)) :
    dispatchedLengths reqs = urlLengths (arrivals.flatMap HttpArrival.events) := by
  have hcontent : dispatchedLengths reqs =
      ((reqs.map Req.content).map fun content => content.url.length).sum := by
    rw [List.map_map]
    rfl
  rw [hcontent, h]
  clear h hcontent
  induction arrivals with
  | nil => rfl
  | cons a arrivals ih =>
      obtain ⟨content, -, halone, his⟩ := alone_eq env a
      simp only [List.flatMap_cons, List.map_append, List.sum_append, ih,
        urlLengths_append, a.urlLengths_events, halone]
      simp [his.url]

/-- Dispatched at their ends, the requests are what they are on their own exactly if
each of them is. -/
theorem Ready.stream_arrivals_iff (env : HttpEnv) {s : HttpParse} (hs : s.Ready)
    (arrivals : List HttpArrival) :
    (s.stream env (arrivals.flatMap HttpArrival.events)).map Req.content =
        arrivals.flatMap (alone env) ↔
      ∀ a ∈ arrivals, a.url.later = [] ∧ a.HeadersArrive := by
  induction arrivals generalizing s with
  | nil => simp [stream]
  | cons a arrivals ih =>
      obtain ⟨content, hserved, halone, -⟩ := alone_eq env a
      rw [List.flatMap_cons, List.flatMap_cons, List.forall_mem_cons,
        ← a.served_eq_whole_iff env, hserved, halone]
      rcases hs.stream_arrival env a (arrivals.flatMap HttpArrival.events) with
        ⟨hnone, hstream⟩ | ⟨req, t, hsome, ht, hstream⟩
      · simp [hstream, hnone]
      · rw [hstream, hsome, List.map_cons, List.singleton_append, List.cons.injEq, ih ht,
          Option.some.injEq]

theorem dispatchAll_eq_alone_iff (env : HttpEnv) (arrivals : List HttpArrival)
    {chunks : List (List HttpEvent)}
    (hchunks : chunks.flatten = arrivals.flatMap HttpArrival.events) :
    (init.dispatchAll env chunks).map Req.content = arrivals.flatMap (alone env) ↔
      (∀ chunk ∈ chunks, Separated chunk) ∧
        ∀ a ∈ arrivals, a.url.later = [] ∧ a.HeadersArrive := by
  have hplain : ∀ event ∈ chunks.flatten, event.isUpgrade = false := by
    intro event hevent
    rw [hchunks, List.mem_flatMap] at hevent
    obtain ⟨a, -, hevent⟩ := hevent
    exact a.events_plain event hevent
  have hstream : (∀ chunk ∈ chunks, Separated chunk) →
      init.dispatchAll env chunks =
        init.stream env (arrivals.flatMap HttpArrival.events) := by
    intro hseparated
    rw [dispatchAll_eq_stream env .init chunks hseparated hplain, hchunks]
  constructor
  · intro hsame
    have hseparated : ∀ chunk ∈ chunks, Separated chunk := by
      by_contra hcross
      simp only [not_forall] at hcross
      obtain ⟨chunk, hchunk, hnot⟩ := hcross
      have hlength := dispatchedLengths_of_alone hsame
      rw [← hchunks] at hlength
      cases arrivals with
      | nil =>
          rw [List.flatMap_nil, List.flatten_eq_nil_iff] at hchunks
          rw [hchunks chunk hchunk] at hnot
          exact hnot trivial
      | cons a arrivals =>
          have hsplit : chunks.flatten = (a.headEvents ++ a.body.map .body) ++
              .messageComplete :: arrivals.flatMap HttpArrival.events := by
            rw [hchunks, List.flatMap_cons, HttpArrival.events]
            simp
          have hpos : 0 < 0 + urlLengths (a.headEvents ++ a.body.map .body) := by
            have hfirst : 0 < a.url.first.length := List.length_pos_iff.mpr a.url_ne
            obtain ⟨tail, htail⟩ := a.events_eq_cons
            rw [htail]
            simp only [urlLengths_cons, HttpEvent.urlLength]
            omega
          have hlt := dispatchedLengths_lt env Reading.init (n := 0) (Nat.le_refl 0)
            a.not_mem_headEvents_bodies hsplit hplain hpos ⟨chunk, hchunk, hnot⟩
          omega
    rw [hstream hseparated, Ready.init.stream_arrivals_iff env] at hsame
    exact ⟨hseparated, hsame⟩
  · rintro ⟨hseparated, hwhole⟩
    rw [hstream hseparated]
    exact (Ready.init.stream_arrivals_iff env arrivals).mpr hwhole

/-- **Requests on one connection**: each is dispatched once, in order and as it is on its
own exactly if no chunk goes on behind the end of a request and each request comes
unhurt through its own pieces.  On its own it has its url, its headers and its body. -/
theorem dispatchAll_pipelined_iff (env : HttpEnv) (arrivals : List HttpArrival)
    {chunks : List (List HttpEvent)}
    (hchunks : chunks.flatten = arrivals.flatMap HttpArrival.events) :
    ((init.dispatchAll env chunks).map Req.content = arrivals.flatMap (alone env) ↔
      (∀ chunk ∈ chunks, Separated chunk) ∧
        ∀ a ∈ arrivals, a.url.later = [] ∧ a.HeadersArrive) ∧
    ∀ a ∈ arrivals, ∃ content, alone env a = [content] ∧ IsOf content a := by
  refine ⟨dispatchAll_eq_alone_iff env arrivals hchunks, fun a _ => ?_⟩
  obtain ⟨content, -, halone, his⟩ := alone_eq env a
  exact ⟨content, halone, his⟩

def plainGet (url : Bytes) (h : url ≠ []) : HttpArrival where
  method := 1
  majorVersion := 1
  minorVersion := 1
  url := ⟨url, []⟩
  headers := []
  body := []
  url_ne := h
  name_ne := HttpArrival.cutUrl.name_ne
  taken := HttpArrival.cutUrl.taken

def twoGets : List HttpArrival :=
  [plainGet (ascii "/a") (by decide), plainGet (ascii "/b") (by decide)]

theorem dispatchAll_pipelined_iff_twoGets :
    ((init.dispatchAll .ofPaths [twoGets.flatMap HttpArrival.events]).map Req.content =
        twoGets.flatMap (alone .ofPaths) ↔
      (∀ chunk ∈ [twoGets.flatMap HttpArrival.events], Separated chunk) ∧
        ∀ a ∈ twoGets, a.url.later = [] ∧ a.HeadersArrive) ∧
    ∀ a ∈ twoGets, ∃ content, alone .ofPaths a = [content] ∧ IsOf content a :=
  dispatchAll_pipelined_iff .ofPaths twoGets (by decide)

/-- Two requests in one chunk: one is dispatched, with the url of the other. -/
theorem not_each_dispatched :
    ¬∀ (env : HttpEnv) (arrivals : List HttpArrival) (chunks : List (List HttpEvent)),
      chunks.flatten = arrivals.flatMap HttpArrival.events →
        (init.dispatchAll env chunks).map Req.content = arrivals.flatMap (alone env) := by
  intro hsame
  have htwo := hsame .ofPaths twoGets [twoGets.flatMap HttpArrival.events] (by decide)
  have hurls := congrArg (·.map ReqContent.url) htwo
  revert hurls
  decide

end HttpParse

end CommonComponent
