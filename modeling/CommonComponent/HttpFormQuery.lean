import CommonComponent.HttpParserChunks
import CommonComponent.TextPieces
import CommonComponent.WebUtil
import Mathlib.Tactic

/-!
# The query of a form

A client encodes the keys and the values of a form one by one and joins them with `=`
and `&`.  `Execute` decodes the joined text as a whole and `ParseQuery` takes the decoded
text apart, so a separator that was part of a key or a value is one of the query then.
-/

namespace CommonComponent

open TextPieces

/-- What a client may send: different keys that are not empty, and no NUL. -/
structure FormPairs where
  pairs : List (Bytes × Bytes)
  keys_nodup : (pairs.map (·.1)).Nodup
  key_ne : ∀ pair ∈ pairs, pair.1 ≠ []
  noNul : ∀ pair ∈ pairs, 0 ∉ pair.1 ∧ 0 ∉ pair.2

namespace FormQuery

def encodePair (pair : Bytes × Bytes) : Bytes :=
  urlEncode pair.1 ++ 61 :: urlEncode pair.2

def queryText (pairs : List (Bytes × Bytes)) : Bytes :=
  [38].intercalate (pairs.map encodePair)

/-- Neither separator is in the text. -/
structure NoSeparator (text : Bytes) : Prop where
  ampersand : 38 ∉ text
  equals : 61 ∉ text

/-- The states of the parser of a connection.  The settings and the records are shared,
and others change them between the calls of `Execute`. -/
inductive Reached (env : HttpEnv) : HttpParse → Prop
  | init : Reached env .init
  | execute {s t : HttpParse} {chunk : HttpChunk} {outcome : HttpOutcome}
      (h : Reached env s) (hrun : s.execute env false chunk = some (t, outcome)) :
      Reached env t
  | shared {s : HttpParse} (h : Reached env s) (bodyCallback : BodyCallback)
      (record : Bool) :
      Reached env { s with bodyCallback := bodyCallback, record := record }

/-! ## No pairs before the dispatch -/

@[simp] theorem parseURL_queries (env : HttpEnv) (r : Req) (data : Bytes) :
    (r.parseURL env data).queries = r.queries := by
  unfold Req.parseURL
  split <;> rfl

@[simp] theorem parseClientIP_queries (r : Req) : r.parseClientIP.queries = r.queries := by
  unfold Req.parseClientIP
  split <;> rfl

@[simp] theorem dump_queries (r : Req) : r.dump.queries = r.queries := by
  unfold Req.dump
  split_ifs <;> rfl

theorem onHeadersComplete_queries {s t : HttpParse} {method major minor : ℕ}
    (h : s.onHeadersComplete method major minor = some t) :
    t.parser.req.queries = s.parser.req.queries := by
  unfold HttpParse.onHeadersComplete at h
  cases hkind : bodyKind s.parser.req.headers with
  | plain =>
      rw [hkind] at h
      cases h
      simp [HttpParse.copyHead, HttpParse.setReq, HttpParse.recordPartMsg]
  | urlEncoded =>
      rw [hkind] at h
      cases h
      simp [HttpParse.copyHead, HttpParse.setReq, HttpParse.recordPartMsg]
  | multipart boundary =>
      rw [hkind] at h
      cases boundary with
      | none => cases h
      | some boundary =>
          cases h
          unfold HttpParse.initMPart
          split_ifs <;> simp [HttpParse.copyHead, HttpParse.setReq, HttpParse.recordPartMsg]

theorem callback_queries {env : HttpEnv} {s t : HttpParse} {event : HttpEvent}
    (h : s.callback env event = some t) :
    t.parser.req.queries = s.parser.req.queries := by
  unfold HttpParse.callback at h
  split_ifs at h
  · cases h
    rfl
  · cases event with
    | messageBegin =>
        cases h
        rfl
    | url data =>
        cases h
        simp [HttpParse.onURL, HttpParse.setReq, HttpParse.recordPartMsg]
    | headerField data =>
        cases h
        rfl
    | headerValue data =>
        cases h
        rfl
    | headersComplete method major minor upgrade =>
        have hkeep := onHeadersComplete_queries h
        exact hkeep
    | body data =>
        cases hbody : s.bodyCallback with
        | onBody =>
            simp only [hbody, Option.some.injEq] at h
            subst h
            rfl
        | onMPartBody =>
            simp only [hbody, HttpParse.onMPartBody] at h
            split_ifs at h
            cases h
            rfl
    | messageComplete =>
        cases h
        unfold HttpParse.onMessageComplete
        dsimp only
        split_ifs <;> simp

theorem feed_queries {env : HttpEnv} {s t : HttpParse} {events : List HttpEvent}
    (hs : s.parser.req.queries = ∅) (h : s.feed env events = some t) :
    t.parser.req.queries = ∅ :=
  HttpParse.feed_keeps (P := fun s => s.parser.req.queries = ∅)
    (fun _ _ _ _ hs hcall => (callback_queries hcall).trans hs) hs h

theorem Reached.queries {env : HttpEnv} {s : HttpParse} (h : Reached env s) :
    s.parser.req.queries = ∅ := by
  induction h with
  | init => rfl
  | shared _ _ _ ih => exact ih
  | @execute s t chunk outcome _ hrun ih =>
      obtain ⟨mid, hfeed, hafter⟩ := Option.map_eq_some_iff.mp hrun
      have hmid := feed_queries ih hfeed
      unfold HttpParse.afterFeed at hafter
      split_ifs at hafter <;> cases hafter
      · exact hmid
      · exact hmid
      · rfl
      · exact hmid

/-! ## The decoded query -/

theorem urlDecode_separator {c : UInt8} (hpercent : c ≠ 37) (hplus : c ≠ 43) (rest : Bytes) :
    urlDecode (c :: rest) = c :: urlDecode rest := by
  rw [urlDecode_plain (startsEscape_of_ne hpercent rest), if_neg hplus]

theorem urlDecode_encodePair (pair : Bytes × Bytes) (rest : Bytes) :
    urlDecode (encodePair pair ++ rest) = pair.1 ++ 61 :: pair.2 ++ urlDecode rest := by
  rw [encodePair, List.append_assoc, urlDecode_urlEncode_append, List.cons_append,
    urlDecode_separator (by decide) (by decide), urlDecode_urlEncode_append]
  simp

theorem urlDecode_queryText (pairs : List (Bytes × Bytes)) :
    urlDecode (queryText pairs) =
      [38].intercalate (pairs.map fun pair => pair.1 ++ 61 :: pair.2) := by
  unfold queryText
  induction pairs with
  | nil => rfl
  | cons pair pairs ih =>
      cases pairs with
      | nil =>
          have hone := urlDecode_encodePair pair []
          simpa [urlDecode] using hone
      | cons next pairs =>
          rw [List.map_cons, List.map_cons, List.intercalate_cons_cons, List.append_assoc,
            urlDecode_encodePair, List.singleton_append,
            urlDecode_separator (by decide) (by decide), ← List.map_cons, ih]
          simp [List.intercalate_cons_cons]

theorem finish_queries {r : Req} (hdecode : r.urlDecode = true) (hfresh : r.queries = ∅)
    (key : Bytes) :
    r.finish.queries[key]? =
      ((strtok 38 (cStr (urlDecode r.query))).map Req.queryEntry).lookup key := by
  have hquery : r.decode.query = urlDecode r.query := by simp [Req.decode, hdecode]
  have hnone : r.decode.queries = ∅ := by simp [Req.decode, hdecode, hfresh]
  unfold Req.finish
  rw [hquery]
  split_ifs with hempty
  · rw [hnone, hempty]
    simp [strtok, cStr]
  · have hentries := getElem?_foldl_insertIfNew
      ((strtok 38 (cStr (urlDecode r.query))).map Req.queryEntry) ∅ key
    rw [List.foldl_map] at hentries
    rw [Req.parseQuery, hquery, hnone]
    simpa using hentries

/-! ## The entries of a query -/

theorem mem_strtok {sep : UInt8} {s token : Bytes} (h : token ∈ strtok sep s) :
    sep ∉ token ∧ token ⊆ s := by
  have hsplit : token ∈ s.splitOn sep := (List.mem_filter.mp h).1
  clear h
  induction s generalizing token with
  | nil =>
      obtain rfl : token = [] := by simpa using hsplit
      simp
  | cons c s ih =>
      rw [List.splitOn_cons_eq_if_modifyHead] at hsplit
      split_ifs at hsplit with hc
      · rcases List.mem_cons.mp hsplit with rfl | hlater
        · simp
        · exact ⟨(ih hlater).1, fun d hd => List.mem_cons_of_mem c ((ih hlater).2 hd)⟩
      · obtain ⟨first, rest, hfirst⟩ :=
          List.exists_cons_of_ne_nil (List.splitOn_ne_nil sep s)
        rw [hfirst, List.modifyHead_cons] at hsplit
        have hne : sep ≠ c := fun h => hc (by simp [h])
        rcases List.mem_cons.mp hsplit with rfl | hlater
        · obtain ⟨hnot, hsub⟩ := ih (show first ∈ s.splitOn sep by simp [hfirst])
          exact ⟨by simp [hne, hnot], List.cons_subset_cons c hsub⟩
        · obtain ⟨hnot, hsub⟩ := ih (show token ∈ s.splitOn sep by simp [hfirst, hlater])
          exact ⟨hnot, fun d hd => List.mem_cons_of_mem c (hsub hd)⟩

/-- No entry has a separator in its key or its value. -/
theorem queryEntry_noSeparator {s token : Bytes} (h : token ∈ strtok 38 s) :
    NoSeparator (Req.queryEntry token).1 ∧ NoSeparator (Req.queryEntry token).2 := by
  have hpiece : ∀ piece ∈ strtok 61 token, NoSeparator piece := fun piece hpiece => by
    obtain ⟨hequals, hsub⟩ := mem_strtok hpiece
    exact ⟨fun hmem => (mem_strtok h).1 (hsub hmem), hequals⟩
  have hnil : NoSeparator [] := ⟨by simp, by simp⟩
  unfold Req.queryEntry
  cases hpieces : strtok 61 token with
  | nil => exact ⟨hnil, hnil⟩
  | cons key values =>
      rw [hpieces, List.forall_mem_cons] at hpiece
      refine ⟨hpiece.1, ?_⟩
      cases hlast : values.getLast? with
      | none =>
          dsimp only
          rw [hlast]
          exact hnil
      | some value =>
          dsimp only
          rw [hlast]
          exact hpiece.2 value (List.mem_of_getLast? hlast)

theorem splitOn_pair {key value : Bytes} (hkey : 61 ∉ key) (hvalue : 61 ∉ value) :
    (key ++ 61 :: value).splitOn 61 = [key, value] := by
  rw [List.splitOn_append_cons_self_of_not_mem hkey, List.splitOn_eq_singleton hvalue]

theorem queryEntry_pair {pair : Bytes × Bytes} (hne : pair.1 ≠ [])
    (hkey : NoSeparator pair.1) (hvalue : NoSeparator pair.2) :
    Req.queryEntry (pair.1 ++ 61 :: pair.2) = pair := by
  unfold Req.queryEntry strtok
  rw [splitOn_pair hkey.equals hvalue.equals]
  by_cases hempty : pair.2 = []
  · simp [hne, hempty, Prod.ext_iff]
  · simp [hne, hempty]

/-- Pairs without separators are the entries of their decoded query. -/
theorem entries_eq (form : FormPairs)
    (hplain : ∀ pair ∈ form.pairs, NoSeparator pair.1 ∧ NoSeparator pair.2) :
    (strtok 38 ([38].intercalate (form.pairs.map fun pair => pair.1 ++ 61 :: pair.2))).map
      Req.queryEntry = form.pairs := by
  by_cases hnone : form.pairs = []
  · rw [hnone]
    rfl
  · have hsplit : ([38].intercalate
        (form.pairs.map fun pair => pair.1 ++ 61 :: pair.2)).splitOn 38 =
        form.pairs.map fun pair => pair.1 ++ 61 :: pair.2 := by
      refine List.splitOn_intercalate 38 (fun text htext => ?_) (by simpa using hnone)
      obtain ⟨pair, hpair, rfl⟩ := List.mem_map.mp htext
      obtain ⟨hkey, hvalue⟩ := hplain pair hpair
      simp [hkey.ampersand, hvalue.ampersand]
    have hfilter : (form.pairs.map fun pair => pair.1 ++ 61 :: pair.2).filter (· ≠ []) =
        form.pairs.map fun pair => pair.1 ++ 61 :: pair.2 := by
      refine List.filter_eq_self.mpr fun text htext => ?_
      obtain ⟨pair, -, rfl⟩ := List.mem_map.mp htext
      simp
    rw [strtok, hsplit, hfilter, List.map_map]
    conv_rhs => rw [← List.map_id form.pairs]
    refine List.map_congr_left fun pair hpair => ?_
    obtain ⟨hkey, hvalue⟩ := hplain pair hpair
    exact queryEntry_pair (form.key_ne pair hpair) hkey hvalue

theorem not_mem_intercalate {c : UInt8} {sep : Bytes} {texts : List Bytes} (hsep : c ∉ sep)
    (htexts : ∀ text ∈ texts, c ∉ text) : c ∉ sep.intercalate texts := by
  induction texts with
  | nil => simp
  | cons text texts ih =>
      rw [List.forall_mem_cons] at htexts
      cases texts with
      | nil => simpa using htexts.1
      | cons next texts =>
          rw [List.intercalate_cons_cons, List.mem_append, List.mem_append, not_or, not_or]
          exact ⟨⟨htexts.1, hsep⟩, ih htexts.2⟩

theorem cStr_decoded (form : FormPairs) :
    cStr (urlDecode (queryText form.pairs)) =
      [38].intercalate (form.pairs.map fun pair => pair.1 ++ 61 :: pair.2) := by
  rw [urlDecode_queryText]
  refine cStr_eq_self (not_mem_intercalate (by decide) fun text htext => ?_)
  obtain ⟨pair, hpair, rfl⟩ := List.mem_map.mp htext
  simp [form.noNul pair hpair]

theorem mem_of_lookup {lines : List (Bytes × Bytes)} {key value : Bytes}
    (h : lines.lookup key = some value) : (key, value) ∈ lines := by
  induction lines with
  | nil => cases h
  | cons line lines ih =>
      rw [lookup_cons_ite] at h
      split_ifs at h with hkey
      · obtain rfl := Option.some.inj h
        rw [hkey]
        exact List.mem_cons_self
      · exact List.mem_cons_of_mem line (ih h)

/-- **The query of a form.**  A form that is dispatched with url decoding on has the
pairs that were encoded, and no others, exactly when no key and no value has a
separator. -/
theorem dispatched_queries_iff {env : HttpEnv} {s mid : HttpParse} {chunk : HttpChunk}
    {connClosed : Bool} {req : Req} (form : FormPairs) (hreached : Reached env s)
    (hfeed : s.feed env chunk.events = some mid)
    (hdispatch : (mid.afterFeed chunk.accepted connClosed).2 = .httpReq req)
    (hdecode : mid.parser.req.urlDecode = true)
    (hquery : mid.parser.req.query = queryText form.pairs) :
    (∀ key, req.queries[key]? = form.pairs.lookup key) ↔
      ∀ pair ∈ form.pairs, NoSeparator pair.1 ∧ NoSeparator pair.2 := by
  have hreq : req = mid.parser.req.finish := by
    unfold HttpParse.afterFeed at hdispatch
    split_ifs at hdispatch
    cases hdispatch
    rfl
  have hentries : ∀ key, req.queries[key]? =
      ((strtok 38 ([38].intercalate
        (form.pairs.map fun pair => pair.1 ++ 61 :: pair.2))).map
          Req.queryEntry).lookup key := fun key => by
    rw [hreq, finish_queries hdecode (feed_queries hreached.queries hfeed), hquery,
      cStr_decoded]
  constructor
  · intro hall pair hpair
    have hlookup := lookup_eq_some_of_mem form.keys_nodup hpair
    rw [← hall, hentries] at hlookup
    obtain ⟨token, htoken, hentry⟩ := List.mem_map.mp (mem_of_lookup hlookup)
    have hplain := queryEntry_noSeparator htoken
    rwa [hentry] at hplain
  · intro hplain key
    rw [hentries, entries_eq form hplain]

/-- The url parser for urls that are a `/` and a query. -/
def rootEnv : HttpEnv where
  parseUrl := fun url =>
    some ⟨none, none, none, some (0, 1), some (2, url.length - 2), none, none⟩
  debugLog := false

/-- A `GET` of the root with a form as its query. -/
def formRequest (pairs : List (Bytes × Bytes)) : HttpChunk :=
  .ofEvents [.messageBegin, .url (ascii "/?" ++ queryText pairs),
    .headerField (ascii "Content-Type"),
    .headerValue (ascii "application/x-www-form-urlencoded"),
    .headersComplete 1 1 1 false, .messageComplete]

def formParse (pair : Bytes × Bytes) : HttpParse :=
  ((HttpParse.init.feed rootEnv (formRequest [pair]).events)).getD .init

theorem dispatched_queries_percent :
    (formParse (ascii "a", ascii "1%+")).parser.req.finish.queries[ascii "a"]? =
      some (ascii "1%+") := by
  let form : FormPairs := ⟨[(ascii "a", ascii "1%+")], by decide, by decide, by decide⟩
  have hplain : ∀ pair ∈ form.pairs, NoSeparator pair.1 ∧ NoSeparator pair.2 := by
    intro pair hpair
    obtain rfl := List.mem_singleton.mp hpair
    exact ⟨⟨by decide, by decide⟩, ⟨by decide, by decide⟩⟩
  have hfeed : HttpParse.init.feed rootEnv (formRequest form.pairs).events =
      some (formParse (ascii "a", ascii "1%+")) := by decide +kernel
  have hdispatch : ((formParse (ascii "a", ascii "1%+")).afterFeed true false).2 =
      .httpReq (formParse (ascii "a", ascii "1%+")).parser.req.finish := by decide +kernel
  have hdecode : (formParse (ascii "a", ascii "1%+")).parser.req.urlDecode = true := by
    decide +kernel
  have hquery : (formParse (ascii "a", ascii "1%+")).parser.req.query =
      queryText form.pairs := by decide +kernel
  have hall := (dispatched_queries_iff form .init hfeed hdispatch hdecode hquery).mpr hplain
  exact (hall (ascii "a")).trans (by decide)

/-- An `&` in a value: what stands behind it becomes a key, and the value is gone. -/
theorem dispatched_queries_ampersand : ¬∀ (env : HttpEnv) (s mid : HttpParse)
    (chunk : HttpChunk) (connClosed : Bool) (req : Req) (form : FormPairs), Reached env s →
      s.feed env chunk.events = some mid →
      (mid.afterFeed chunk.accepted connClosed).2 = .httpReq req →
      mid.parser.req.urlDecode = true →
      mid.parser.req.query = queryText form.pairs →
      ∀ key, req.queries[key]? = form.pairs.lookup key := by
  intro hall
  let form : FormPairs := ⟨[(ascii "a", ascii "&b")], by decide, by decide, by decide⟩
  have hvalue := hall rootEnv .init (formParse (ascii "a", ascii "&b"))
    (formRequest form.pairs) false (formParse (ascii "a", ascii "&b")).parser.req.finish form
    .init (by decide +kernel) (by decide +kernel) (by decide +kernel) (by decide +kernel)
    (ascii "b")
  have hfound : (formParse (ascii "a", ascii "&b")).parser.req.finish.queries[ascii "b"]? =
      some [] := by decide +kernel
  rw [hfound] at hvalue
  exact absurd hvalue (by decide)

end FormQuery

end CommonComponent
