import CommonComponent.ProtoMsgCodec
import CommonComponent.TextPieces
import Mathlib.Tactic

/-!
# An HTTP request

`http::Req` collects what the library reports of a request: the url with its parts, the
headers, the body.  The query pairs, the client address and the boundary of a multipart
body are computed from these.  The maps are `std::map`s, and `insert` keeps what is
already there.

The library's `http_parser_parse_url` and the level of the log come as an environment.
-/

namespace CommonComponent

/-- `HeaderMap`, `QueryMap` and `AttrMap`. -/
abbrev StringMap := Std.ExtTreeMap Bytes Bytes compare

/-- The map that a list of header lines makes. -/
def headerMap (lines : List (Bytes × Bytes)) : StringMap :=
  lines.foldl (fun headers line => headers.insertIfNew line.1 line.2) ∅

def ascii (s : String) : Bytes := s.toList.map fun c => UInt8.ofNat c.toNat

/-- The part of a string that a C function sees. -/
def cStr (s : Bytes) : Bytes := s.takeWhile (· ≠ 0)

theorem cStr_eq_self {s : Bytes} (hs : 0 ∉ s) : cStr s = s := TextPieces.before_eq_self hs

theorem cStr_append_zero {s : Bytes} (hs : 0 ∉ s) (rest : Bytes) : cStr (s ++ 0 :: rest) = s := by
  rw [cStr, List.takeWhile_append_of_pos fun c hc => by
    simpa using ne_of_mem_of_not_mem hc hs]
  simp

/-- The tokens of `strtok_r`: none of them is empty. -/
def strtok (sep : UInt8) (s : Bytes) : List Bytes := (s.splitOn sep).filter (· ≠ [])

def toLower (c : UInt8) : UInt8 := if 65 ≤ c && c ≤ 90 then c + 32 else c

def isXDigit (c : UInt8) : Bool :=
  (48 ≤ c && c ≤ 57) || (65 ≤ c && c ≤ 70) || (97 ≤ c && c ≤ 102)

/-- `strncasecmp` with the whole of `pre`. -/
def hasPrefixNoCase (pre s : Bytes) : Bool :=
  (s.take pre.length).map toLower = pre.map toLower

def hexDigit (c : UInt8) : UInt8 :=
  let c := toLower c
  if 48 ≤ c && c ≤ 57 then c - 48 else c - 97 + 10

def htoi (high low : UInt8) : UInt8 := hexDigit high * 16 + hexDigit low

def urlDecode : Bytes → Bytes
  | c :: high :: low :: rest =>
      if c = 37 && isXDigit high && isXDigit low then htoi high low :: urlDecode rest
      else (if c = 43 then 32 else c) :: urlDecode (high :: low :: rest)
  | c :: rest => (if c = 43 then 32 else c) :: urlDecode rest
  | [] => []

/-- `http_parser_url`: offset and length of each part that is there. -/
structure HttpParserUrl where
  schema : Option (ℕ × ℕ)
  host : Option (ℕ × ℕ)
  port : Option UInt16
  path : Option (ℕ × ℕ)
  query : Option (ℕ × ℕ)
  fragment : Option (ℕ × ℕ)
  userInfo : Option (ℕ × ℕ)

/-- `http_parser_parse_url`, and whether the log is at its debug level. -/
structure HttpEnv where
  parseUrl : Bytes → Option HttpParserUrl
  debugLog : Bool

/-- An environment for urls that are paths. -/
def HttpEnv.ofPaths : HttpEnv where
  parseUrl := fun url => some ⟨none, none, none, some (0, url.length), none, none, none⟩
  debugLog := false

/-- `boundary` is the one that the multipart parser has been made with, if there is one. -/
structure Req where
  method : ℕ
  majorVersion : ℕ
  minorVersion : ℕ
  clientIP : Bytes
  url : Bytes
  schema : Bytes
  host : Bytes
  port : UInt16
  path : Bytes
  query : Bytes
  queries : StringMap
  fragment : Bytes
  userInfo : Bytes
  headers : StringMap
  urlDecode : Bool
  body : Bytes
  boundary : Option Bytes
deriving DecidableEq

/-- What a handler goes by. -/
structure ReqContent where
  url : Bytes
  path : Bytes
  query : Bytes
  queries : StringMap
  headers : StringMap
  clientIP : Bytes
  body : Bytes
deriving DecidableEq

namespace Req

/-- `Req::Req`; 1 is `HTTP_GET`. -/
def init : Req where
  method := 1
  majorVersion := 1
  minorVersion := 1
  clientIP := []
  url := []
  schema := []
  host := []
  port := 0
  path := []
  query := []
  queries := ∅
  fragment := []
  userInfo := []
  headers := ∅
  urlDecode := false
  body := []
  boundary := none

/-- `Reset` leaves the multipart parser as it is. -/
def reset (r : Req) : Req :=
  { init with majorVersion := 0, minorVersion := 0, boundary := r.boundary }

def content (r : Req) : ReqContent where
  url := r.url
  path := r.path
  query := r.query
  queries := r.queries
  headers := r.headers
  clientIP := r.clientIP
  body := r.body

def substr (s : Bytes) (field : ℕ × ℕ) : Bytes := (s.drop field.1).take field.2

/-- The url is replaced; a part that is not in it keeps the value it had. -/
def parseURL (env : HttpEnv) (r : Req) (data : Bytes) : Req :=
  match env.parseUrl data with
  | none => { r with url := data }
  | some u =>
      { r with
        url := data
        schema := (u.schema.map (substr data)).getD r.schema
        host := (u.host.map (substr data)).getD r.host
        port := u.port.getD r.port
        path := (u.path.map (substr data)).getD r.path
        query := (u.query.map (substr data)).getD r.query
        fragment := (u.fragment.map (substr data)).getD r.fragment
        userInfo := (u.userInfo.map (substr data)).getD r.userInfo }

/-- The key and the value of one `key=value`; of more values the last one counts. -/
def queryEntry (token : Bytes) : Bytes × Bytes :=
  match strtok 61 token with
  | [] => ([], [])
  | key :: values => (key, values.getLast?.getD [])

def parseQuery (r : Req) : Req :=
  { r with
    queries := (strtok 38 (cStr r.query)).foldl
      (fun queries token =>
        queries.insertIfNew (queryEntry token).1 (queryEntry token).2)
      r.queries }

def addHeader (r : Req) (name value : Bytes) : Req :=
  { r with headers := r.headers.insertIfNew name value }

def parseClientIP (r : Req) : Req :=
  match r.headers[ascii "X-Forwarded-For"]? with
  | none => r
  | some value => { r with clientIP := (cStr value).takeWhile (· ≠ 44) }

def appendBody (r : Req) (data : Bytes) : Req := { r with body := r.body ++ data }

/-- What `Dump` changes. -/
def dump (r : Req) : Req := if r.path = [] then { r with path := ascii "/" } else r

end Req

def isSpace (c : UInt8) : Bool := c = 32 || (9 ≤ c && c ≤ 13)

def isQuote (c : UInt8) : Bool := c = 34 || c = 39

def strTrimSpace (s : Bytes) : Bytes := (s.dropWhile isSpace).rdropWhile isSpace

def strTrimQuotes (s : Bytes) : Bytes := (s.dropWhile isQuote).rdropWhile isQuote

/-- `name=value` pairs between semicolons.  A pair without a `=` has no value, and the
null pointer is read. -/
def parseAttr (str : Bytes) : Option StringMap :=
  ((str.dropWhile isSpace).splitOn 59).foldlM
    (fun attrs pair =>
      match pair.splitOn 61 with
      | name :: value :: _ =>
          some (attrs.insertIfNew (strTrimSpace name)
            (strTrimSpace (strTrimQuotes value)))
      | _ => none)
    ∅

/-- `GetBoundary`: empty where there is none, and no result at all where `ParseAttr` has
none or starts behind the end of the string. -/
def getBoundary (contentType : Bytes) : Option Bytes :=
  if contentType.length < (ascii "multipart/form-data;").length then none
  else
    (parseAttr (cStr (contentType.drop (ascii "multipart/form-data;").length))).map
      fun attrs =>
        match attrs[ascii "boundary"]? with
        | none => []
        | some boundary => ascii "--" ++ boundary

/-- What the headers say of the body. -/
inductive BodyKind
  | plain
  | urlEncoded
  | multipart (boundary : Option Bytes)
deriving DecidableEq

/-- The two tests on the content type. -/
def bodyKind (headers : StringMap) : BodyKind :=
  match headers[ascii "Content-Type"]? with
  | none => .plain
  | some contentType =>
      if hasPrefixNoCase (ascii "application/x-www-form-urlencoded") contentType then
        .urlEncoded
      else if hasPrefixNoCase (ascii "multipart/form-data") contentType then
        .multipart (getBoundary contentType)
      else .plain

namespace Req

section simps

variable (env : HttpEnv) (r : Req) (data name value : Bytes)

@[simp] theorem parseURL_url : (r.parseURL env data).url = data := by
  unfold parseURL
  split <;> rfl

@[simp] theorem parseURL_headers : (r.parseURL env data).headers = r.headers := by
  unfold parseURL
  split <;> rfl

@[simp] theorem parseURL_body : (r.parseURL env data).body = r.body := by
  unfold parseURL
  split <;> rfl

@[simp] theorem parseURL_urlDecode : (r.parseURL env data).urlDecode = r.urlDecode := by
  unfold parseURL
  split <;> rfl

@[simp] theorem parseClientIP_url : r.parseClientIP.url = r.url := by
  unfold parseClientIP
  split <;> rfl

@[simp] theorem parseClientIP_headers : r.parseClientIP.headers = r.headers := by
  unfold parseClientIP
  split <;> rfl

@[simp] theorem parseClientIP_body : r.parseClientIP.body = r.body := by
  unfold parseClientIP
  split <;> rfl

@[simp] theorem parseClientIP_urlDecode : r.parseClientIP.urlDecode = r.urlDecode := by
  unfold parseClientIP
  split <;> rfl

@[simp] theorem dump_url : r.dump.url = r.url := by
  unfold dump
  split_ifs <;> rfl

@[simp] theorem dump_headers : r.dump.headers = r.headers := by
  unfold dump
  split_ifs <;> rfl

@[simp] theorem dump_body : r.dump.body = r.body := by
  unfold dump
  split_ifs <;> rfl

@[simp] theorem dump_urlDecode : r.dump.urlDecode = r.urlDecode := by
  unfold dump
  split_ifs <;> rfl

end simps

end Req

end CommonComponent
