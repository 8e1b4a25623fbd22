import CommonComponent.HttpParserStream
import Mathlib.Tactic

/-!
# A request in pieces

A token that does not end in its chunk is reported in pieces.  `HttpArrival` is a request
with the pieces in which its tokens come; the first piece of a token is empty only if the
token is.  The body is put together of its pieces.  `OnURL` and `OnHeaderField` put the
new piece in the place of the earlier ones, and the second piece of a value finds its name
in the map.

So a request is what it is in one chunk exactly if its url is not cut, and the last piece
of each name with the first of its value makes the map that the whole lines make.
-/

namespace CommonComponent

/-- A token in its pieces. -/
structure HttpToken where
  first : Bytes
  later : List Bytes
deriving DecidableEq

namespace HttpToken

def pieces (t : HttpToken) : List Bytes := t.first :: t.later

def whole (t : HttpToken) : Bytes := t.pieces.flatten

def last (t : HttpToken) : Bytes := t.later.getLastD t.first

def uncut (t : HttpToken) : HttpToken := ⟨t.whole, []⟩

@[simp] theorem uncut_whole (t : HttpToken) : t.uncut.whole = t.whole := by
  simp [uncut, whole, pieces]

theorem length_last_add_le {t : HttpToken} (h : t.later ≠ []) :
    t.first.length + t.last.length ≤ t.whole.length := by
  have hmem : t.last ∈ t.later := by
    rw [last, List.getLastD_eq_getLast?, List.getLast?_eq_some_getLast h]
    exact List.getLast_mem h
  have hle : t.last.length ≤ t.later.flatten.length := by
    rw [List.length_flatten]
    exact List.single_le_sum (by simp) _ (List.mem_map_of_mem hmem)
  simp only [whole, pieces, List.flatten_cons, List.length_append]
  omega

theorem length_last_le (t : HttpToken) : t.last.length ≤ t.whole.length := by
  by_cases h : t.later = []
  · simp [last, whole, pieces, h]
  · have := length_last_add_le h
    omega

theorem later_eq_nil_iff {t : HttpToken} (h : t.first ≠ []) :
    t.last.length = t.whole.length ↔ t.later = [] := by
  constructor
  · intro hlength
    by_contra hlater
    have hle := length_last_add_le hlater
    have hpos : 0 < t.first.length := List.length_pos_iff.mpr h
    omega
  · intro hlater
    simp [last, whole, pieces, hlater]

end HttpToken

/-- The body of such a request can be taken. -/
def BodyKind.taken : BodyKind → Bool
  | .multipart none => false
  | .multipart (some boundary) => boundary ≠ []
  | _ => true

/-- The body of a request whose body comes as `data`: the parts of a multipart body go
to a parser of their own. -/
def BodyKind.bodyOf (data : Bytes) : BodyKind → Bytes
  | .plain => data
  | .urlEncoded => urlDecode data
  | .multipart _ => []

/-- A request that is not an upgrade, in the pieces in which it comes.  In it every
header has a name, and a multipart body has a boundary. -/
structure HttpArrival where
  method : ℕ
  majorVersion : ℕ
  minorVersion : ℕ
  url : HttpToken
  headers : List (HttpToken × HttpToken)
  body : List Bytes
  url_ne : url.first ≠ []
  name_ne : ∀ line ∈ headers, line.1.first ≠ []
  taken : (bodyKind (headerMap (headers.map fun line =>
    (line.1.whole, line.2.whole)))).taken = true

namespace HttpArrival

def lines (a : HttpArrival) : List (Bytes × Bytes) :=
  a.headers.map fun line => (line.1.whole, line.2.whole)

/-- The header lines as they come: the last piece of the name, the first of the value. -/
def arrivedLines (a : HttpArrival) : List (Bytes × Bytes) :=
  a.headers.map fun line => (line.1.last, line.2.first)

def lineEvents (line : HttpToken × HttpToken) : List HttpEvent :=
  line.1.pieces.map .headerField ++ line.2.pieces.map .headerValue

/-- The calls up to the end of the headers. -/
def headEvents (a : HttpArrival) : List HttpEvent :=
  .messageBegin :: a.url.pieces.map .url ++ a.headers.flatMap lineEvents ++
    [.headersComplete a.method a.majorVersion a.minorVersion false]

def events (a : HttpArrival) : List HttpEvent :=
  a.headEvents ++ a.body.map .body ++ [.messageComplete]

def whole (a : HttpArrival) : HttpArrival where
  method := a.method
  majorVersion := a.majorVersion
  minorVersion := a.minorVersion
  url := a.url.uncut
  headers := a.headers.map fun line => (line.1.uncut, line.2.uncut)
  body := if a.body.flatten = [] then [] else [a.body.flatten]
  url_ne := by
    simp [HttpToken.uncut, HttpToken.whole, HttpToken.pieces, a.url_ne]
  name_ne := by
    intro line hline
    obtain ⟨line', hline', rfl⟩ := List.mem_map.mp hline
    simp [HttpToken.uncut, HttpToken.whole, HttpToken.pieces, a.name_ne line' hline']
  taken := by
    rw [List.map_map]
    simpa [Function.comp_def] using a.taken

/-- The headers make the same map in their pieces. -/
def HeadersArrive (a : HttpArrival) : Prop :=
  headerMap a.arrivedLines = headerMap a.lines

end HttpArrival

namespace Req

/-- What is dispatched does not depend on these. -/
def relabel (r : Req) (method major minor : ℕ) (boundary : Option Bytes) : Req :=
  { r with
    method := method
    majorVersion := major
    minorVersion := minor
    boundary := boundary }

section relabel

variable (r : Req) (method major minor : ℕ) (boundary : Option Bytes)

theorem parseURL_relabel (env : HttpEnv) (data : Bytes) :
    (r.relabel method major minor boundary).parseURL env data =
      (r.parseURL env data).relabel method major minor boundary := by
  unfold parseURL
  split <;> rfl

theorem foldl_parseURL_relabel (env : HttpEnv) (pieces : List Bytes) :
    pieces.foldl (parseURL env) (r.relabel method major minor boundary) =
      (pieces.foldl (parseURL env) r).relabel method major minor boundary := by
  induction pieces generalizing r with
  | nil => rfl
  | cons data rest ih =>
      rw [List.foldl_cons, parseURL_relabel, ih]
      rfl

theorem parseClientIP_relabel :
    (r.relabel method major minor boundary).parseClientIP =
      r.parseClientIP.relabel method major minor boundary := by
  unfold parseClientIP
  split <;> simp_all [relabel]

theorem dump_relabel :
    (r.relabel method major minor boundary).dump =
      r.dump.relabel method major minor boundary := by
  unfold dump
  split_ifs <;> simp_all [relabel]

theorem finish_relabel_content :
    (r.relabel method major minor boundary).finish.content = r.finish.content := by
  have hdecode : (r.relabel method major minor boundary).decode =
      r.decode.relabel method major minor boundary := by
    unfold decode
    split_ifs <;> simp_all [relabel]
  rw [finish, finish, hdecode]
  split_ifs <;> simp_all [relabel, parseQuery, content]

end relabel

theorem foldl_parseURL_headers (env : HttpEnv) (pieces : List Bytes) (r : Req) :
    (pieces.foldl (parseURL env) r).headers = r.headers := by
  induction pieces generalizing r with
  | nil => rfl
  | cons data rest ih =>
      rw [List.foldl_cons, ih, parseURL_headers]

theorem foldl_parseURL_body (env : HttpEnv) (pieces : List Bytes) (r : Req) :
    (pieces.foldl (parseURL env) r).body = r.body ∧
      (pieces.foldl (parseURL env) r).urlDecode = r.urlDecode := by
  induction pieces generalizing r with
  | nil => exact ⟨rfl, rfl⟩
  | cons data rest ih =>
      have hrest := ih (r.parseURL env data)
      rw [parseURL_body, parseURL_urlDecode] at hrest
      exact hrest

theorem foldl_parseURL_url (env : HttpEnv) (t : HttpToken) (r : Req) :
    (t.pieces.foldl (parseURL env) r).url = t.last := by
  obtain ⟨first, later⟩ := t
  induction later generalizing first r with
  | nil => simp [HttpToken.pieces, HttpToken.last]
  | cons data rest ih =>
      have hrest := ih (r.parseURL env first) data
      simp only [HttpToken.pieces, HttpToken.last, List.foldl_cons, List.getLastD_cons]
        at hrest ⊢
      exact hrest

end Req

namespace HttpParse

variable (env : HttpEnv) {s : HttpParse}

theorem feed_urls (hs : s.parser.failed = false) (hrecord : s.record = true)
    (pieces : List Bytes) :
    s.feed env (pieces.map .url) =
      some (s.setReq (pieces.foldl (Req.parseURL env) s.parser.req)) := by
  induction pieces generalizing s with
  | nil => rfl
  | cons data rest ih =>
      have hone : s.callback env (.url data) = some (s.onURL env data) := by
        simp [callback, hs]
      have hrest := ih (s := s.onURL env data) hs rfl
      rw [List.map_cons, feed_cons, hone, Option.bind_some, hrest]
      simp [onURL, setReq, recordPartMsg, hrecord]

theorem feed_headerFields (hs : s.parser.failed = false) (hrecord : s.record = true)
    (t : HttpToken) :
    s.feed env (t.pieces.map .headerField) =
      some { s with parser := { s.parser with lastHeaderName := t.last } } := by
  obtain ⟨first, later⟩ := t
  have hone : ∀ {s : HttpParse} (data : Bytes), s.parser.failed = false →
      s.callback env (.headerField data) = some (s.onHeaderField data) := by
    intro s data hs
    simp [callback, hs]
  induction later generalizing s first with
  | nil =>
      rw [HttpToken.pieces, List.map_singleton, feed_cons, hone first hs]
      simp [feed_nil, onHeaderField, recordPartMsg, hrecord, HttpToken.last]
  | cons data rest ih =>
      rw [HttpToken.pieces, List.map_cons, feed_cons, hone first hs, Option.bind_some]
      have hrest := ih (s := s.onHeaderField first) hs rfl data
      rw [HttpToken.pieces] at hrest
      rw [hrest]
      simp only [onHeaderField, recordPartMsg, hrecord, HttpToken.last,
        List.getLastD_cons]

/-- Only the first piece of a value gets into the map. -/
theorem feed_headerValues (hs : s.parser.failed = false) (hrecord : s.record = true)
    (t : HttpToken) :
    s.feed env (t.pieces.map .headerValue) =
      some (s.setReq (s.parser.req.addHeader s.parser.lastHeaderName t.first)) := by
  obtain ⟨first, later⟩ := t
  have hone : ∀ {s : HttpParse} (data : Bytes), s.parser.failed = false →
      s.callback env (.headerValue data) = some (s.onHeaderValue data) := by
    intro s data hs
    simp [callback, hs]
  have hkept : ∀ {s : HttpParse} (later : List Bytes), s.parser.failed = false →
      s.record = true → s.parser.lastHeaderName ∈ s.parser.req.headers →
      s.feed env (later.map .headerValue) = some s := by
    intro s later hs hrecord hmem
    induction later with
    | nil => rfl
    | cons data rest ih =>
        have hsame : s.onHeaderValue data = s := by
          have hmap : s.parser.req.headers.insertIfNew s.parser.lastHeaderName data =
              s.parser.req.headers := by
            apply Std.ExtTreeMap.ext_getElem?
            intro name
            rw [Std.ExtTreeMap.getElem?_insertIfNew]
            simp [hmem]
          simp only [onHeaderValue, Req.addHeader, hmap, setReq, recordPartMsg]
          rw [← hrecord]
        rw [List.map_cons, feed_cons, hone data hs, Option.bind_some, hsame]
        exact ih
  have hmem : (s.onHeaderValue first).parser.lastHeaderName ∈
      (s.onHeaderValue first).parser.req.headers := by
    simp [onHeaderValue, setReq, recordPartMsg, Req.addHeader]
  have hlater := hkept later (s := s.onHeaderValue first) hs rfl hmem
  rw [HttpToken.pieces, List.map_cons, feed_cons, hone first hs, Option.bind_some,
    hlater]
  simp [onHeaderValue, setReq, recordPartMsg, hrecord]

theorem feed_lines (hs : s.parser.failed = false) (hrecord : s.record = true)
    (lines : List (HttpToken × HttpToken)) :
    ∃ name,
      s.feed env (lines.flatMap HttpArrival.lineEvents) =
        some { s with
          parser :=
            { s.parser with
              req :=
                { s.parser.req with
                  headers := (lines.map fun line => (line.1.last, line.2.first)).foldl
                    (fun headers line => headers.insertIfNew line.1 line.2)
                    s.parser.req.headers }
              lastHeaderName := name } } := by
  induction lines generalizing s with
  | nil => exact ⟨s.parser.lastHeaderName, rfl⟩
  | cons line rest ih =>
      set named : HttpParse :=
        { s with parser := { s.parser with lastHeaderName := line.1.last } } with hnamed
      have hvalues := feed_headerValues env (s := named) hs hrecord line.2
      obtain ⟨name, hrest⟩ :=
        ih (s := named.setReq (named.parser.req.addHeader line.1.last line.2.first)) hs
          hrecord
      refine ⟨name, ?_⟩
      rw [List.flatMap_cons, HttpArrival.lineEvents, List.append_assoc, feed_append,
        feed_headerFields env hs hrecord, Option.bind_some, feed_append, hvalues,
        Option.bind_some, hrest]
      rfl

theorem feed_bodies (hs : s.parser.failed = false) (hbody : s.bodyCallback = .onBody)
    (hrecord : s.record = true) (pieces : List Bytes) :
    s.feed env (pieces.map .body) =
      some (s.setReq (s.parser.req.appendBody pieces.flatten)) := by
  induction pieces generalizing s with
  | nil => simp [feed_nil, setReq, Req.appendBody]
  | cons data rest ih =>
      have hone : s.callback env (.body data) = some (s.onBody data) := by
        simp [callback, hs, hbody]
      have hrest := ih (s := s.onBody data) hs hbody rfl
      rw [List.map_cons, feed_cons, hone, Option.bind_some, hrest]
      simp [onBody, setReq, recordPartMsg, hrecord, Req.appendBody]

/-- The body of a multipart request goes to its own parser. -/
theorem feed_bodies_multipart (hs : s.parser.failed = false)
    (hbody : s.bodyCallback = .onMPartBody) (hboundary : s.parser.req.boundary ≠ none)
    (pieces : List Bytes) : s.feed env (pieces.map .body) = some s := by
  induction pieces with
  | nil => rfl
  | cons data rest ih =>
      have hone : s.callback env (.body data) = some s := by
        simp [callback, hs, hbody, onMPartBody, hboundary]
      rw [List.map_cons, feed_cons, hone]
      exact ih

end HttpParse

namespace HttpArrival

def headReq (env : HttpEnv) (a : HttpArrival) (r : Req) : Req :=
  { a.url.pieces.foldl (Req.parseURL env) r with
    headers := headerMap a.arrivedLines
    method := a.method
    majorVersion := a.majorVersion
    minorVersion := a.minorVersion }.parseClientIP

/-- What has become of the request at its end, if it is taken. -/
def request (env : HttpEnv) (a : HttpArrival) (r : Req) : Option Req :=
  let r := a.headReq env r
  let bodied : Option Req :=
    match bodyKind (headerMap a.arrivedLines) with
    | .plain => some (r.appendBody a.body.flatten)
    | .urlEncoded => some ({ r with urlDecode := true }.appendBody a.body.flatten)
    | .multipart none => none
    | .multipart (some boundary) =>
        if boundary = [] then none else some { r with boundary := some boundary }
  bodied.map fun r => if env.debugLog then r.dump else r

theorem not_mem_headEvents_bodies (a : HttpArrival) :
    .messageComplete ∉ a.headEvents ++ a.body.map .body := by
  simp [headEvents, lineEvents]

end HttpArrival

namespace HttpParse

variable (env : HttpEnv) {s : HttpParse}

theorem feed_head (hs : s.parser.failed = false) (hheaders : s.parser.req.headers = ∅)
    (a : HttpArrival) :
    ∃ name,
      s.feed env a.headEvents =
        ({ parser :=
            { s.parser with
              req := a.headReq env s.parser.req
              lastHeaderName := name
              upgrade := false
              failed := false }
           bodyCallback := .onBody
           record := true } : HttpParse).takeBody (bodyKind (headerMap a.arrivedLines)) := by
  have hbegin : s.callback env .messageBegin = some s.onMessageBegin := by
    simp [callback, hs]
  have hurls := feed_urls env (s := s.onMessageBegin) hs rfl a.url.pieces
  set urled := s.onMessageBegin.setReq
    (a.url.pieces.foldl (Req.parseURL env) s.onMessageBegin.parser.req) with hurled
  obtain ⟨name, hlines⟩ := feed_lines env (s := urled) hs rfl a.headers
  refine ⟨name, ?_⟩
  have hnone : urled.parser.req.headers = ∅ := by
    simp [hurled, setReq, Req.foldl_parseURL_headers, onMessageBegin, recordPartMsg,
      hheaders]
  rw [hnone] at hlines
  rw [HttpArrival.headEvents, List.append_assoc, List.cons_append, feed_cons, hbegin,
    Option.bind_some, feed_append, hurls, Option.bind_some, feed_append, hlines,
    Option.bind_some, feed_singleton]
  have hfailed : urled.parser.failed = false := hs
  simp only [callback, hfailed, Bool.false_eq_true, if_false, onHeadersComplete]
  rfl

theorem feed_arrival (hs : s.parser.failed = false) (hheaders : s.parser.req.headers = ∅)
    (a : HttpArrival) :
    match a.request env s.parser.req with
    | none =>
        ∀ t, s.feed env (a.headEvents ++ a.body.map .body) = some t →
          t.parser.failed = true ∧ t.parser.upgrade = false
    | some req =>
        ∃ t, s.feed env (a.headEvents ++ a.body.map .body) = some t ∧
          (t.onMessageComplete env).parser.req = req ∧ t.parser.failed = false ∧
          t.parser.upgrade = false := by
  obtain ⟨name, hhead⟩ := feed_head env hs hheaders a
  rw [feed_append, hhead]
  unfold HttpArrival.request
  cases hkind : bodyKind (headerMap a.arrivedLines) with
  | plain =>
      have hbodies := feed_bodies env (s :=
        { parser :=
            { s.parser with
              req := a.headReq env s.parser.req
              lastHeaderName := name
              upgrade := false
              failed := false }
          bodyCallback := .onBody
          record := true }) rfl rfl rfl a.body
      refine ⟨_, hbodies, ?_, rfl, rfl⟩
      rfl
  | urlEncoded =>
      have hbodies := feed_bodies env (s :=
        { parser :=
            { s.parser with
              req := { a.headReq env s.parser.req with urlDecode := true }
              lastHeaderName := name
              upgrade := false
              failed := false }
          bodyCallback := .onBody
          record := true }) rfl rfl rfl a.body
      refine ⟨_, hbodies, ?_, rfl, rfl⟩
      rfl
  | multipart boundary =>
      cases boundary with
      | none => exact fun t ht => absurd ht (by simp [takeBody])
      | some boundary =>
          by_cases hempty : boundary = []
          · subst hempty
            intro t ht
            rw [takeBody, initMPart, if_pos rfl, Option.bind_some,
              feed_of_failed env rfl] at ht
            cases ht
            exact ⟨rfl, rfl⟩
          · have hbodies := feed_bodies_multipart env (s :=
              { parser :=
                  { s.parser with
                    req := { a.headReq env s.parser.req with boundary := some boundary }
                    lastHeaderName := name
                    upgrade := false
                    failed := false }
                bodyCallback := .onMPartBody
                record := true }) rfl rfl (by simp) a.body
            simp only [if_neg hempty, takeBody, initMPart, Option.bind_some]
            refine ⟨_, hbodies, ?_, rfl, rfl⟩
            rfl

end HttpParse

namespace HttpArrival

theorem headReq_relabel (env : HttpEnv) (a : HttpArrival) (r : Req)
    (method major minor : ℕ) (boundary : Option Bytes) :
    a.headReq env (r.relabel method major minor boundary) =
      (a.headReq env r).relabel a.method a.majorVersion a.minorVersion boundary := by
  unfold headReq
  rw [Req.foldl_parseURL_relabel, ← Req.parseClientIP_relabel]
  rfl

theorem headReq_url (env : HttpEnv) (a : HttpArrival) (r : Req) :
    (a.headReq env r).url = a.url.last := by
  rw [headReq, Req.parseClientIP_url]
  exact Req.foldl_parseURL_url env a.url r

theorem headReq_headers (env : HttpEnv) (a : HttpArrival) (r : Req) :
    (a.headReq env r).headers = headerMap a.arrivedLines := by
  rw [headReq, Req.parseClientIP_headers]

theorem request_fields {env : HttpEnv} {a : HttpArrival} {r req : Req}
    (h : a.request env r = some req) :
    req.url = a.url.last ∧ req.headers = headerMap a.arrivedLines := by
  obtain ⟨bodied, hbodied, hreq⟩ := Option.map_eq_some_iff.mp h
  have hfields : bodied.url = (a.headReq env r).url ∧
      bodied.headers = (a.headReq env r).headers := by
    split at hbodied
    · cases hbodied
      exact ⟨rfl, rfl⟩
    · cases hbodied
      exact ⟨rfl, rfl⟩
    · cases hbodied
    · split_ifs at hbodied
      cases hbodied
      exact ⟨rfl, rfl⟩
  have hdumped : req.url = bodied.url ∧ req.headers = bodied.headers := by
    rw [← hreq]
    split_ifs <;> simp
  constructor
  · rw [hdumped.1, hfields.1, headReq_url]
  · rw [hdumped.2, hfields.2, headReq_headers]

theorem headReq_body (env : HttpEnv) (a : HttpArrival) (r : Req) :
    (a.headReq env r).body = r.body ∧ (a.headReq env r).urlDecode = r.urlDecode := by
  rw [headReq, Req.parseClientIP_body, Req.parseClientIP_urlDecode]
  exact Req.foldl_parseURL_body env a.url.pieces r

theorem request_body {env : HttpEnv} {a : HttpArrival} {r req : Req}
    (hbody : r.body = []) (hdecode : r.urlDecode = false)
    (h : a.request env r = some req) :
    req.finish.body = (bodyKind (headerMap a.arrivedLines)).bodyOf a.body.flatten := by
  obtain ⟨hempty, hplain⟩ := a.headReq_body env r
  rw [hbody] at hempty
  rw [hdecode] at hplain
  obtain ⟨bodied, hbodied, hreq⟩ := Option.map_eq_some_iff.mp h
  have hdumped : req.finish.body = bodied.finish.body := by
    rw [← hreq]
    split_ifs <;> simp
  rw [hdumped, Req.finish_body]
  cases hkind : bodyKind (headerMap a.arrivedLines) with
  | plain =>
      simp only [hkind, Option.some.injEq] at hbodied
      simp [← hbodied, Req.appendBody, hempty, hplain, BodyKind.bodyOf]
  | urlEncoded =>
      simp only [hkind, Option.some.injEq] at hbodied
      simp [← hbodied, Req.appendBody, hempty, BodyKind.bodyOf]
  | multipart boundary =>
      cases boundary with
      | none => simp [hkind] at hbodied
      | some boundary =>
          by_cases hnone : boundary = []
          · simp [hkind, hnone] at hbodied
          · simp only [hkind, if_neg hnone, Option.some.injEq] at hbodied
            simp [← hbodied, hempty, hplain, BodyKind.bodyOf]

/-- What is dispatched for the request, if it is taken. -/
def served (env : HttpEnv) (a : HttpArrival) : Option ReqContent :=
  (a.request env .init).map fun r => r.finish.content

theorem request_relabel_content (env : HttpEnv) (a : HttpArrival) (r : Req)
    (method major minor : ℕ) (boundary : Option Bytes) :
    (a.request env (r.relabel method major minor boundary)).map
        (fun r => r.finish.content) =
      (a.request env r).map fun r => r.finish.content := by
  have hdump : ∀ (r : Req) (method major minor : ℕ) (boundary : Option Bytes),
      (if env.debugLog then (r.relabel method major minor boundary).dump
        else r.relabel method major minor boundary).finish.content =
      (if env.debugLog then r.dump else r).finish.content := by
    intro r method major minor boundary
    split_ifs
    · rw [Req.dump_relabel, Req.finish_relabel_content]
    · rw [Req.finish_relabel_content]
  unfold request
  rw [headReq_relabel]
  set head := a.headReq env r with hhead
  cases bodyKind (headerMap a.arrivedLines) with
  | plain =>
      exact congrArg some
        (hdump (head.appendBody a.body.flatten) a.method a.majorVersion a.minorVersion
          boundary)
  | urlEncoded =>
      let decoded : Req := { head with urlDecode := true }
      exact congrArg some
        (hdump (decoded.appendBody a.body.flatten) a.method a.majorVersion
          a.minorVersion boundary)
  | multipart found =>
      cases found with
      | none => rfl
      | some found =>
          by_cases hempty : found = []
          · simp only [if_pos hempty, Option.map_none]
          · simp only [if_neg hempty, Option.map_some]
            have hleft := hdump head a.method a.majorVersion a.minorVersion (some found)
            have hright := hdump head head.method head.majorVersion head.minorVersion
              (some found)
            exact congrArg some (hleft.trans hright.symm)

theorem arrivedLines_whole (a : HttpArrival) : a.whole.arrivedLines = a.lines := by
  simp [whole, arrivedLines, lines, HttpToken.uncut, HttpToken.last]

theorem flatten_body_whole (a : HttpArrival) : a.whole.body.flatten = a.body.flatten := by
  simp only [whole]
  split_ifs with hempty
  · exact hempty.symm
  · simp

theorem served_whole_ne_none (env : HttpEnv) (a : HttpArrival) :
    a.whole.served env ≠ none := by
  have htaken : (bodyKind (headerMap a.whole.arrivedLines)).taken = true := by
    rw [arrivedLines_whole]
    exact a.taken
  unfold served request
  cases hkind : bodyKind (headerMap a.whole.arrivedLines) with
  | plain => simp
  | urlEncoded => simp
  | multipart boundary =>
      rw [hkind] at htaken
      cases boundary with
      | none => cases htaken
      | some boundary =>
          have hne : boundary ≠ [] := by simpa [BodyKind.taken] using htaken
          simp [hne]

/-- A request that is not hurt by its pieces is the one of one chunk. -/
theorem request_eq_whole {env : HttpEnv} {a : HttpArrival} (hurl : a.url.later = [])
    (hheaders : a.HeadersArrive) (r : Req) : a.request env r = a.whole.request env r := by
  have hlines : headerMap a.whole.arrivedLines = headerMap a.arrivedLines := by
    rw [arrivedLines_whole]
    exact hheaders.symm
  have hpieces : a.whole.url.pieces = a.url.pieces := by
    simp [whole, HttpToken.uncut, HttpToken.pieces, HttpToken.whole, hurl]
  have hhead : a.whole.headReq env r = a.headReq env r := by
    unfold headReq
    rw [hpieces, hlines]
    rfl
  unfold request
  rw [hhead, hlines, flatten_body_whole]

/-- The exact condition for a request on its own. -/
theorem served_eq_whole_iff (env : HttpEnv) (a : HttpArrival) :
    a.served env = a.whole.served env ↔ a.url.later = [] ∧ a.HeadersArrive := by
  constructor
  · intro hserved
    obtain ⟨content, hwhole⟩ := Option.ne_none_iff_exists'.mp (a.served_whole_ne_none env)
    rw [hwhole] at hserved
    obtain ⟨req, hreq, hcontent⟩ := Option.map_eq_some_iff.mp hserved
    obtain ⟨req', hreq', hcontent'⟩ := Option.map_eq_some_iff.mp hwhole
    have hsame : req.finish.content = req'.finish.content := hcontent.trans hcontent'.symm
    have hurl : req.finish.url = req'.finish.url := congrArg ReqContent.url hsame
    have hheaders : req.finish.headers = req'.finish.headers :=
      congrArg ReqContent.headers hsame
    rw [Req.finish_url, Req.finish_url, (request_fields hreq).1,
      (request_fields hreq').1] at hurl
    rw [Req.finish_headers, Req.finish_headers, (request_fields hreq).2,
      (request_fields hreq').2, arrivedLines_whole] at hheaders
    refine ⟨?_, hheaders⟩
    rw [← HttpToken.later_eq_nil_iff a.url_ne, hurl]
    simp [whole, HttpToken.uncut, HttpToken.last]
  · rintro ⟨hurl, hheaders⟩
    unfold served
    rw [request_eq_whole hurl hheaders]

end HttpArrival

/-! ## Header lines with different names -/

theorem lookup_cons_ite (line : Bytes × Bytes) (rest : List (Bytes × Bytes))
    (name : Bytes) :
    (line :: rest).lookup name =
      if name = line.1 then some line.2 else rest.lookup name := by
  rw [List.lookup_cons]
  split_ifs with hname
  · simp [hname]
  · rw [beq_false_of_ne hname]

theorem getElem?_foldl_insertIfNew (lines : List (Bytes × Bytes)) (headers : StringMap)
    (name : Bytes) :
    (lines.foldl (fun headers line => headers.insertIfNew line.1 line.2) headers)[name]? =
      headers[name]?.or (lines.lookup name) := by
  induction lines generalizing headers with
  | nil => simp
  | cons line rest ih =>
      rw [List.foldl_cons, ih, Std.ExtTreeMap.getElem?_insertIfNew, lookup_cons_ite]
      by_cases hname : name = line.1
      · subst hname
        by_cases hmem : line.1 ∈ headers
        · simp [hmem]
        · simp [hmem]
      · have hne : ¬line.1 = name := fun h => hname h.symm
        simp [hname, hne, Std.LawfulEqCmp.compare_eq_iff_eq]

theorem getElem?_headerMap (lines : List (Bytes × Bytes)) (name : Bytes) :
    (headerMap lines)[name]? = lines.lookup name := by
  rw [headerMap, getElem?_foldl_insertIfNew]
  simp

theorem lookup_eq_some_of_mem {lines : List (Bytes × Bytes)}
    (hnodup : (lines.map (·.1)).Nodup) {line : Bytes × Bytes} (hmem : line ∈ lines) :
    lines.lookup line.1 = some line.2 := by
  induction lines with
  | nil => cases hmem
  | cons other rest ih =>
      rw [List.map_cons, List.nodup_cons] at hnodup
      rw [lookup_cons_ite]
      rcases List.mem_cons.mp hmem with rfl | hrest
      · simp
      · have hne : line.1 ≠ other.1 := by
          intro heq
          apply hnodup.1
          rw [← heq]
          exact List.mem_map_of_mem hrest
        simp [hne, ih hnodup.2 hrest]

theorem mem_map_fst_iff_lookup (lines : List (Bytes × Bytes)) (name : Bytes) :
    name ∈ lines.map (·.1) ↔ (lines.lookup name).isSome := by
  rw [List.lookup_isSome_iff, List.mem_map]
  constructor
  · rintro ⟨line, hmem, rfl⟩
    exact ⟨line, hmem, beq_self_eq_true _⟩
  · rintro ⟨line, hmem, hname⟩
    exact ⟨line, hmem, (eq_of_beq hname).symm⟩

theorem eq_of_sum_map_eq {l : List (HttpToken × HttpToken)}
    {f g : HttpToken × HttpToken → ℕ} (hle : ∀ x ∈ l, f x ≤ g x)
    (hsum : (l.map f).sum = (l.map g).sum) : ∀ x ∈ l, f x = g x := by
  intro x hx
  by_contra hne
  have hlt : f x < g x := lt_of_le_of_ne (hle x hx) hne
  have := List.sum_lt_sum f g hle ⟨x, hx, hlt⟩
  omega

namespace HttpArrival

/-- Where no two names are the same, the headers arrive exactly if no name is cut and no
value goes on behind its first piece. -/
theorem headersArrive_iff_of_nodup (a : HttpArrival)
    (hnodup : (a.headers.map (·.1.whole)).Nodup) :
    a.HeadersArrive ↔
      ∀ line ∈ a.headers, line.1.later = [] ∧ line.2.later.flatten = [] := by
  have hnames : a.lines.map (·.1) = a.headers.map (·.1.whole) := by
    simp [lines]
  have harrived : a.arrivedLines.map (·.1) = a.headers.map (·.1.last) := by
    simp [arrivedLines]
  constructor
  · intro hsame
    have hlookup : ∀ name, a.arrivedLines.lookup name = a.lines.lookup name := by
      intro name
      rw [← getElem?_headerMap, ← getElem?_headerMap, hsame]
    -- as many names arrive as there are, so they are the same ones, and none is shorter
    have hsubset : a.lines.map (·.1) ⊆ a.arrivedLines.map (·.1) := by
      intro name hname
      rw [mem_map_fst_iff_lookup, hlookup]
      exact (mem_map_fst_iff_lookup _ _).mp hname
    rw [hnames, harrived] at hsubset
    have hperm := (hnodup.subperm hsubset).perm_of_length_le (by simp)
    have hsum := (hperm.map List.length).sum_eq
    rw [List.map_map, List.map_map] at hsum
    have hlength := eq_of_sum_map_eq (l := a.headers)
      (f := fun line => line.1.last.length) (g := fun line => line.1.whole.length)
      (fun line _ => line.1.length_last_le) hsum.symm
    have hname : ∀ line ∈ a.headers, line.1.later = [] := by
      intro line hline
      exact (HttpToken.later_eq_nil_iff (a.name_ne line hline)).mp (hlength line hline)
    intro line hline
    refine ⟨hname line hline, ?_⟩
    have hlast : ∀ line ∈ a.headers, line.1.last = line.1.whole := by
      intro line hline
      simp [HttpToken.last, HttpToken.whole, HttpToken.pieces, hname line hline]
    have hnodup' : (a.arrivedLines.map (·.1)).Nodup := by
      rw [harrived, List.map_congr_left hlast]
      exact hnodup
    have hwhole := lookup_eq_some_of_mem (hnames ▸ hnodup)
      (List.mem_map_of_mem hline : (line.1.whole, line.2.whole) ∈ a.lines)
    have hfirst := lookup_eq_some_of_mem hnodup'
      (List.mem_map_of_mem hline : (line.1.last, line.2.first) ∈ a.arrivedLines)
    rw [hlookup, hlast line hline] at hfirst
    have hvalue : line.2.whole = line.2.first := Option.some.inj (hwhole.symm.trans hfirst)
    simpa [HttpToken.whole, HttpToken.pieces] using hvalue
  · intro huncut
    have hlines : a.arrivedLines = a.lines := by
      apply List.map_congr_left
      intro line hline
      obtain ⟨hname, hvalue⟩ := huncut line hline
      simp [HttpToken.last, HttpToken.whole, HttpToken.pieces, hname, hvalue]
    rw [HeadersArrive, hlines]

end HttpArrival

/-! ## The chunks of a request -/

namespace HttpParse

structure Ready (s : HttpParse) : Prop where
  reading : s.Reading
  failed : s.parser.failed = false
  req : ∃ method major minor boundary,
    s.parser.req = Req.init.relabel method major minor boundary

theorem Ready.init : init.Ready := ⟨.init, rfl, 1, 1, 1, none, rfl⟩

/-- A request at the beginning of what comes is dispatched, and the parser is in front
of the next one. -/
theorem Ready.stream_arrival (env : HttpEnv) {s : HttpParse} (hs : s.Ready) (a : HttpArrival)
    (more : List HttpEvent) :
    (a.served env = none ∧ s.stream env (a.events ++ more) = []) ∨
      ∃ (req : Req) (t : HttpParse), a.served env = some req.content ∧ t.Ready ∧
        s.stream env (a.events ++ more) = req :: t.stream env more := by
  obtain ⟨hreading, hfailed, method, major, minor, boundary, hreq⟩ := hs
  have hheaders : s.parser.req.headers = ∅ := by
    rw [hreq]
    rfl
  have hserved : (a.request env s.parser.req).map (fun r => r.finish.content) =
      a.served env := by
    rw [hreq]
    exact a.request_relabel_content env .init method major minor boundary
  have hfeed := feed_arrival env hfailed hheaders a
  rw [HttpArrival.events, List.append_assoc, stream_append env s a.not_mem_headEvents_bodies]
  cases hrequest : a.request env s.parser.req with
  | none =>
      rw [hrequest] at hfeed hserved
      refine .inl ⟨hserved.symm, ?_⟩
      cases hend : s.feed env (a.headEvents ++ a.body.map .body) with
      | none => rfl
      | some t =>
          rw [Option.map_some, Option.getD_some]
          exact stream_of_failed env (hfeed t hend).1 _
  | some req =>
      rw [hrequest] at hfeed hserved
      obtain ⟨t, hend, hcomplete, hfailed', hupgrade⟩ := hfeed
      refine .inr ⟨req.finish, (t.onMessageComplete env).dispatched false, hserved.symm,
        ?_, ?_⟩
      · exact ⟨⟨rfl, hupgrade⟩, hfailed', 1, 0, 0, _, rfl⟩
      · have hcall : t.callback env .messageComplete = some (t.onMessageComplete env) := by
          simp [callback, hfailed']
        have hfailed'' : (t.onMessageComplete env).parser.failed = false := hfailed'
        simp only [hend, Option.map_some, Option.getD_some, List.singleton_append,
          HttpParse.stream, hcall, hfailed'', and_self, if_true, hcomplete]

end HttpParse

namespace HttpArrival

theorem events_plain (a : HttpArrival) : ∀ event ∈ a.events, event.isUpgrade = false := by
  intro event hevent
  cases event with
  | headersComplete method major minor upgrade =>
      have hplain : method = a.method ∧ major = a.majorVersion ∧
          minor = a.minorVersion ∧ upgrade = false := by
        simpa [events, headEvents, lineEvents] using hevent
      exact hplain.2.2.2
  | _ => rfl

end HttpArrival

theorem eq_nil_of_append_singleton {α : Type*} {pre post l : List α} {a : α}
    (h : pre ++ a :: post = l ++ [a]) (hnot : a ∉ l) : post = [] := by
  rcases List.eq_nil_or_concat post with hnil | ⟨init, last, rfl⟩
  · exact hnil
  · have hlast : (pre ++ a :: init) ++ [last] = l ++ [a] := by
      rw [← h]
      simp
    exfalso
    apply hnot
    rw [← (List.append_inj' hlast rfl).1]
    simp

namespace HttpArrival

/-- The request comes to the same however its calls are cut into chunks. -/
theorem dispatchAll_eq (env : HttpEnv) (a : HttpArrival) {chunks : List (List HttpEvent)}
    (hchunks : chunks.flatten = a.events) :
    (HttpParse.init.dispatchAll env chunks).map Req.content = (a.served env).toList := by
  have hseparated : ∀ chunk ∈ chunks, Separated chunk := by
    intro chunk hchunk
    by_cases hmem : .messageComplete ∈ chunk
    · obtain ⟨calls, more, rfl, hcalls⟩ := List.eq_append_cons_of_mem hmem
      obtain ⟨before, after, hsplit⟩ := List.append_of_mem hchunk
      rw [separated_append_iff hcalls]
      left
      have hone :
          (before.flatten ++ calls) ++ HttpEvent.messageComplete :: (more ++ after.flatten) =
            (a.headEvents ++ a.body.map .body) ++ [.messageComplete] := by
        rw [← events, ← hchunks, hsplit]
        simp
      have hnothing := eq_nil_of_append_singleton hone a.not_mem_headEvents_bodies
      exact (List.append_eq_nil_iff.mp hnothing).1
    · exact separated_of_not_mem hmem
  have hplain : ∀ event ∈ chunks.flatten, event.isUpgrade = false := by
    rw [hchunks]
    exact a.events_plain
  rw [HttpParse.dispatchAll_eq_stream env .init chunks hseparated hplain, hchunks]
  rcases HttpParse.Ready.init.stream_arrival env a [] with
    ⟨hserved, hstream⟩ | ⟨req, t, hserved, -, hstream⟩
  · rw [List.append_nil] at hstream
    simp [hserved, hstream]
  · rw [List.append_nil] at hstream
    simp [hserved, hstream, HttpParse.stream]

/-- **A request and its chunks**: what is dispatched is the same as in one chunk exactly
if the url is not cut and the headers make the same map; and where no two names are the
same, that is so if no name is cut and no value goes on behind its first piece. -/
theorem dispatchAll_chunks_iff (env : HttpEnv) (a : HttpArrival)
    {chunks : List (List HttpEvent)} (hchunks : chunks.flatten = a.events) :
    (∃ req, HttpParse.init.dispatchAll env [a.whole.events] = [req] ∧
      ((HttpParse.init.dispatchAll env chunks).map Req.content = [req.content] ↔
        a.url.later = [] ∧ a.HeadersArrive)) ∧
      ((a.headers.map (·.1.whole)).Nodup →
        (a.HeadersArrive ↔
          ∀ line ∈ a.headers, line.1.later = [] ∧ line.2.later.flatten = [])) := by
  refine ⟨?_, a.headersArrive_iff_of_nodup⟩
  have hflatten : [a.whole.events].flatten = a.whole.events := by simp
  have hone := a.whole.dispatchAll_eq env hflatten
  obtain ⟨content, hserved⟩ := Option.ne_none_iff_exists'.mp (a.served_whole_ne_none env)
  rw [hserved, Option.toList_some] at hone
  obtain ⟨req, hreq, rfl⟩ := List.map_eq_singleton_iff.mp hone
  refine ⟨req, hreq, ?_⟩
  rw [a.dispatchAll_eq env hchunks, ← a.served_eq_whole_iff env, hserved]
  cases a.served env <;> simp

/-- `GET /a/b HTTP/1.1`, with a chunk that ends behind `/a`. -/
def cutUrl : HttpArrival where
  method := 1
  majorVersion := 1
  minorVersion := 1
  url := ⟨ascii "/a", [ascii "/b"]⟩
  headers := []
  body := []
  url_ne := by decide
  name_ne := by decide
  taken := by decide

theorem dispatchAll_chunks_iff_cutUrl :
    (∃ req, HttpParse.init.dispatchAll .ofPaths [cutUrl.whole.events] = [req] ∧
      ((HttpParse.init.dispatchAll .ofPaths [cutUrl.events.take 2, cutUrl.events.drop 2]).map
          Req.content = [req.content] ↔
        cutUrl.url.later = [] ∧ cutUrl.HeadersArrive)) ∧
      ((cutUrl.headers.map (·.1.whole)).Nodup →
        (cutUrl.HeadersArrive ↔
          ∀ line ∈ cutUrl.headers, line.1.later = [] ∧ line.2.later.flatten = [])) :=
  dispatchAll_chunks_iff .ofPaths cutUrl (by decide)

/-- The handler is given `/b`. -/
theorem not_independent_of_chunks :
    ¬∀ (env : HttpEnv) (a : HttpArrival) (chunks : List (List HttpEvent)),
      chunks.flatten = a.events →
        (HttpParse.init.dispatchAll env chunks).map Req.content =
          (HttpParse.init.dispatchAll env [a.whole.events]).map Req.content := by
  intro hsame
  have hcut := hsame .ofPaths cutUrl [cutUrl.events.take 2, cutUrl.events.drop 2] (by decide)
  have hurl := congrArg (·.map ReqContent.url) hcut
  revert hurl
  decide

end HttpArrival

end CommonComponent
