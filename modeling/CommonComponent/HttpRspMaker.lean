import CommonComponent.HttpLines
import CommonComponent.LabelledRun
import Mathlib.Tactic

/-!
# What `RspMaker` makes

The headers of a maker are kept between the calls of `MakeRsp`, and so is the
`Content-Length` that a call puts among them.

A response is right when it is the same text whatever lies behind the formatting buffer,
and is the status line, each header that was set, the length of the body, and the body.
What was set is kept beside the maker, in a list of its own that is written down from the
calls; a name that is set again keeps the value it has.  The texts of the statuses come
from the library.
-/

namespace CommonComponent

open FormatBuffer LabelledRun

structure RspMaker where
  statusCode : ℤ
  headers : StringMap

abbrev RspBody := {bytes : Bytes // bytes.length < 2 ^ 64}

/-- What lies behind the buffer, each time something is copied from it. -/
abbrev BehindBuf := Bytes → ℕ → UInt8

def contentLength : Bytes := ascii "Content-Length"

def decimalInt : ℤ → Bytes
  | .ofNat n => decimal n
  | .negSucc n => 45 :: decimal (n + 1)

/-- `"HTTP/1.1 %d %s\r\n"`. -/
def statusLine (statusStr : ℤ → Bytes) (statusCode : ℤ) : Bytes :=
  ascii "HTTP/1.1 " ++ decimalInt statusCode ++ 32 :: (cStr (statusStr statusCode) ++ crlf)

namespace RspMaker

/-- 200 is `HTTP_STATUS_OK`. -/
def init : RspMaker := ⟨200, ∅⟩

def setStatusCode (m : RspMaker) (statusCode : ℤ) : RspMaker :=
  { m with statusCode := statusCode }

def addHeader (m : RspMaker) (name value : Bytes) : RspMaker :=
  { m with headers := m.headers.insertIfNew name value }

def setContentType (m : RspMaker) (contentType : Bytes) : RspMaker :=
  m.addHeader (ascii "Content-Type") contentType

def setKeepAlive (m : RspMaker) (on : Bool) : RspMaker :=
  m.addHeader (ascii "Connection") (if on then ascii "Keep-Alive" else ascii "close")

def setNoCache (m : RspMaker) : RspMaker :=
  (m.addHeader (ascii "Cache-Control") (ascii "no-cache")).addHeader (ascii "Pragma")
    (ascii "no-cache")

/-- `MakeRsp`; without a body there is only the status line. -/
def makeRsp (statusStr : ℤ → Bytes) (behind : BehindBuf) (m : RspMaker)
    (body : Option RspBody) : Bytes × RspMaker :=
  let status := printLine 0 behind ([], formatBuf) (statusLine statusStr m.statusCode)
  match body with
  | none => (status.1, m)
  | some body =>
      if body.1 = [] then (status.1, m)
      else
        let length := decimal body.1.length
        let buf := snprintf 0 status.2 length
        let m := m.addHeader contentLength (copied buf (behind status.1) length.length)
        let rsp := printLines 0 behind (status.1, buf) (m.headers.toList.map headerLine)
        (rsp.1 ++ crlf ++ body.1, m)

end RspMaker

/-! ## Runs of one maker -/

/-- A maker, and beside it the status and the headers that the calls have set. -/
structure RspRun where
  maker : RspMaker
  statusCode : ℤ
  sets : List (Bytes × Bytes)

inductive RspAction
  | setStatusCode (statusCode : ℤ)
  | setContentType (contentType : Bytes)
  | setKeepAlive (on : Bool)
  | setNoCache
  | addHeader (name value : Bytes)
  | makeRsp (behind : BehindBuf) (body : Option RspBody)

/-- The names and values that a call sets. -/
def RspAction.headers : RspAction → List (Bytes × Bytes)
  | .setContentType contentType => [(ascii "Content-Type", contentType)]
  | .setKeepAlive true => [(ascii "Connection", ascii "Keep-Alive")]
  | .setKeepAlive false => [(ascii "Connection", ascii "close")]
  | .setNoCache => [(ascii "Cache-Control", ascii "no-cache"), (ascii "Pragma", ascii "no-cache")]
  | .addHeader name value => [(name, value)]
  | _ => []

def RspAction.status (statusCode : ℤ) : RspAction → ℤ
  | .setStatusCode statusCode => statusCode
  | _ => statusCode

namespace RspRun

def init : RspRun := ⟨.init, 200, []⟩

def apply (statusStr : ℤ → Bytes) (m : RspMaker) : RspAction → RspMaker
  | .setStatusCode statusCode => m.setStatusCode statusCode
  | .setContentType contentType => m.setContentType contentType
  | .setKeepAlive on => m.setKeepAlive on
  | .setNoCache => m.setNoCache
  | .addHeader name value => m.addHeader name value
  | .makeRsp behind body => (m.makeRsp statusStr behind body).2

def step (statusStr : ℤ → Bytes) (s : RspRun) (a : RspAction) : Option RspRun :=
  some ⟨apply statusStr s.maker a, a.status s.statusCode, s.sets ++ a.headers⟩

/-- Each name with the value that was set first. -/
def setHeaders (s : RspRun) : StringMap := headerMap s.sets

def bodyBytes (body : Option RspBody) : Bytes := body.elim [] (·.1)

/-- The headers of a response: those that were set, and the length of its body. -/
def rspHeaders (s : RspRun) (body : Option RspBody) : StringMap :=
  headerMap (s.sets ++ [(contentLength, decimal (bodyBytes body).length)])

structure RspRight (statusStr : ℤ → Bytes) (s : RspRun) (body : Option RspBody) : Prop where
  length : (s.rspHeaders body)[contentLength]? = some (decimal (bodyBytes body).length)
  text : ∀ behind, (s.maker.makeRsp statusStr behind body).1 =
    statusLine statusStr s.statusCode ++ (s.rspHeaders body).toList.flatMap headerText ++
      crlf ++ bodyBytes body

def StepRight (statusStr : ℤ → Bytes) (s : RspRun) (a : RspAction) (_ : RspRun) : Prop :=
  match a with
  | .makeRsp _ body => s.RspRight statusStr body
  | _ => True

/-- There is a body; every line of the head leaves room for the terminator, and no header
has a NUL; and a `Content-Length` that was set, or left by an earlier call, is the length
of the body. -/
structure CallOk (statusStr : ℤ → Bytes) (s : RspRun) (body : Option RspBody) : Prop where
  nonempty : bodyBytes body ≠ []
  status : (statusLine statusStr s.statusCode).length < 1024
  headers : ∀ header ∈ s.setHeaders.toList, HeaderFits header
  set : ∀ value, s.setHeaders[contentLength]? = some value →
    value = decimal (bodyBytes body).length
  kept : ∀ value, s.maker.headers[contentLength]? = some value →
    value = decimal (bodyBytes body).length

def ActionOk (statusStr : ℤ → Bytes) (s : RspRun) : RspAction → Prop
  | .makeRsp _ body => s.CallOk statusStr body
  | _ => True

end RspRun

/-! ## The headers of the maker -/

/-- The maker's headers are those that were set, but for a length left by a call. -/
structure Kept (headers sets : StringMap) : Prop where
  same : ∀ name, name ≠ contentLength → headers[name]? = sets[name]?
  length : ∀ value, headers[contentLength]? = some value →
    sets[contentLength]? = some value ∨ ∃ n < 2 ^ 64, value = decimal n
  missing : headers[contentLength]? = none → sets[contentLength]? = none

theorem getElem?_insertIfNew (headers : StringMap) (name value key : Bytes) :
    (headers.insertIfNew name value)[key]? =
      if key = name then some (headers[name]?.getD value) else headers[key]? := by
  simp only [Std.ExtTreeMap.getElem?_insertIfNew, Std.LawfulEqCmp.compare_eq_iff_eq]
  by_cases hkey : key = name
  · subst hkey
    by_cases hmem : key ∈ headers
    · obtain ⟨old, hold⟩ := Option.isSome_iff_exists.mp
        (Std.ExtTreeMap.mem_iff_isSome_getElem?.mp hmem)
      simp [hmem]
    · simp [hmem]
  · rw [if_neg fun h => hkey h.1.symm, if_neg hkey]

theorem Kept.empty : Kept ∅ ∅ := ⟨fun _ _ => rfl, by simp, by simp⟩

theorem Kept.set {headers sets : StringMap} (h : Kept headers sets) (name value : Bytes) :
    Kept (headers.insertIfNew name value) (sets.insertIfNew name value) where
  same := by
    intro key hkey
    rw [getElem?_insertIfNew, getElem?_insertIfNew, h.same key hkey]
    split_ifs with heq
    · rw [← heq, h.same key hkey]
    · rfl
  length := by
    intro old hold
    rw [getElem?_insertIfNew] at hold ⊢
    split_ifs at hold ⊢ with hname
    · subst hname
      cases hprev : headers[contentLength]? with
      | none =>
          left
          rw [h.missing hprev]
          rwa [hprev] at hold
      | some prev =>
          rw [hprev, Option.getD_some, Option.some.injEq] at hold
          subst hold
          rcases h.length prev hprev with hset | hleft
          · exact .inl (by rw [hset, Option.getD_some])
          · exact .inr hleft
    · exact h.length old hold
  missing := by
    rw [getElem?_insertIfNew, getElem?_insertIfNew]
    split_ifs with hname
    · simp
    · exact h.missing

theorem Kept.leave {headers sets : StringMap} (h : Kept headers sets) {n : ℕ}
    (hn : n < 2 ^ 64) : Kept (headers.insertIfNew contentLength (decimal n)) sets where
  same := by
    intro key hkey
    rw [getElem?_insertIfNew, if_neg hkey, h.same key hkey]
  length := by
    intro old hold
    rw [getElem?_insertIfNew, if_pos rfl, Option.some.injEq] at hold
    cases hprev : headers[contentLength]? with
    | none =>
        rw [hprev, Option.getD_none] at hold
        exact .inr ⟨n, hn, hold.symm⟩
    | some prev =>
        rw [hprev, Option.getD_some] at hold
        exact h.length old (hold ▸ hprev)
  missing := by
    rw [getElem?_insertIfNew, if_pos rfl]
    simp

theorem toList_eq_map {headers headers' : StringMap}
    (hnames : ∀ name, name ∈ headers ↔ name ∈ headers') :
    headers.toList = headers'.toList.map fun header =>
      (header.1, headers.getD header.1 []) := by
  have hmap : headers = headers'.map fun name _ => headers.getD name [] := by
    apply Std.ExtTreeMap.ext_getElem?
    intro name
    rw [Std.ExtTreeMap.getElem?_map]
    by_cases hmem : name ∈ headers
    · obtain ⟨value, hvalue⟩ := Option.isSome_iff_exists.mp
        (Std.ExtTreeMap.mem_iff_isSome_getElem?.mp ((hnames name).mp hmem))
      rw [hvalue, Option.map_some, Std.ExtTreeMap.getElem?_eq_some_getD hmem]
    · rw [Std.ExtTreeMap.getElem?_eq_none hmem,
        Std.ExtTreeMap.getElem?_eq_none (fun h => hmem ((hnames name).mpr h)), Option.map_none]
  conv_lhs => rw [hmap]
  rw [Std.ExtTreeMap.toList_map]

/-! ## One call -/

namespace RspMaker

variable (statusStr : ℤ → Bytes) (behind : BehindBuf) (m : RspMaker)

theorem makeRsp_of_nil {body : Option RspBody} (hbody : RspRun.bodyBytes body = []) :
    m.makeRsp statusStr behind body =
      ((printLine 0 behind ([], formatBuf) (statusLine statusStr m.statusCode)).1, m) := by
  unfold makeRsp
  cases body with
  | none => rfl
  | some body => exact if_pos hbody

theorem length_decimal_lt (body : RspBody) : (decimal body.1.length).length < 1024 :=
  (length_decimal_le body.2).trans_lt (by decide)

/-- The number is printed into the buffer as well, and comes out whole. -/
theorem makeRsp_of_ne {body : RspBody} (hbody : body.1 ≠ []) :
    m.makeRsp statusStr behind (some body) =
      ((printLines 0 behind ([], formatBuf) (statusLine statusStr m.statusCode ::
          (m.addHeader contentLength (decimal body.1.length)).headers.toList.map
            headerLine)).1 ++ crlf ++ body.1,
        m.addHeader contentLength (decimal body.1.length)) := by
  have hstatus : (printLine 0 behind ([], formatBuf)
      (statusLine statusStr m.statusCode)).2.length = 1024 :=
    (length_snprintf 0 _ (by simp)).trans length_formatBuf
  have hshort : (decimal body.1.length).length < (printLine 0 behind ([], formatBuf)
      (statusLine statusStr m.statusCode)).2.length :=
    (length_decimal_lt body).trans_eq hstatus.symm
  have hbuf : (snprintf 0 (printLine 0 behind ([], formatBuf)
      (statusLine statusStr m.statusCode)).2 (decimal body.1.length)).length =
        (printLine 0 behind ([], formatBuf) (statusLine statusStr m.statusCode)).2.length :=
    length_snprintf 0 _ (by rw [hstatus]; decide)
  unfold makeRsp
  dsimp only
  rw [if_neg hbody, copied_snprintf_of_lt _ hshort,
    printLines_congr behind _ (by rw [hbuf, hstatus]; decide) hbuf, printLines_cons]

theorem makeRsp_headers (body : Option RspBody) :
    (m.makeRsp statusStr behind body).2.headers = m.headers ∨
      ∃ n < 2 ^ 64, (m.makeRsp statusStr behind body).2.headers =
        m.headers.insertIfNew contentLength (decimal n) := by
  by_cases hbody : RspRun.bodyBytes body = []
  · exact .inl (by rw [makeRsp_of_nil statusStr behind m hbody])
  · cases body with
    | none => exact (hbody rfl).elim
    | some body =>
        refine .inr ⟨body.1.length, body.2, ?_⟩
        rw [makeRsp_of_ne statusStr behind m hbody]
        rfl

theorem makeRsp_statusCode (body : Option RspBody) :
    (m.makeRsp statusStr behind body).2.statusCode = m.statusCode := by
  unfold makeRsp
  cases body with
  | none => rfl
  | some body =>
      dsimp only
      split_ifs <;> rfl

end RspMaker

namespace RspRun

variable (statusStr : ℤ → Bytes)

theorem rspHeaders_eq (s : RspRun) (body : Option RspBody) :
    s.rspHeaders body =
      s.setHeaders.insertIfNew contentLength (decimal (bodyBytes body).length) := by
  rw [rspHeaders, headerMap, List.foldl_append]
  rfl

/-- The maker has the status and the headers that were set. -/
structure HasSets (s : RspRun) : Prop where
  status : s.maker.statusCode = s.statusCode
  kept : Kept s.maker.headers s.setHeaders

theorem HasSets.init : HasSets init := ⟨rfl, .empty⟩

theorem step_hasSets {s s' : RspRun} {a : RspAction} (h : s.HasSets)
    (hstep : s.step statusStr a = some s') : s'.HasSets := by
  obtain rfl := Option.some.inj hstep
  have hset : ∀ names : List (Bytes × Bytes), headerMap (s.sets ++ names) =
      names.foldl (fun headers line => headers.insertIfNew line.1 line.2) s.setHeaders :=
    fun names => List.foldl_append
  constructor
  · cases a with
    | makeRsp behind body => exact (s.maker.makeRsp_statusCode statusStr behind body).trans h.status
    | setStatusCode statusCode => rfl
    | _ => exact h.status
  · rw [setHeaders, hset]
    cases a with
    | setStatusCode statusCode => exact h.kept
    | setContentType contentType => exact h.kept.set _ _
    | setKeepAlive on => cases on <;> exact h.kept.set _ _
    | setNoCache => exact (h.kept.set _ _).set _ _
    | addHeader name value => exact h.kept.set name value
    | makeRsp behind body =>
        rcases s.maker.makeRsp_headers statusStr behind body with hsame | ⟨n, hn, hleft⟩
        · exact hsame.symm ▸ h.kept
        · exact hleft.symm ▸ h.kept.leave hn

end RspRun

/-! ## When a response is right -/

theorem nul_not_mem_statusLine (statusStr : ℤ → Bytes) (statusCode : ℤ) :
    0 ∉ statusLine statusStr statusCode := by
  have hcode : 0 ∉ decimalInt statusCode := by
    cases statusCode with
    | ofNat n => exact not_mem_decimal (by decide)
    | negSucc n => simp [decimalInt, not_mem_decimal]
  have htext : 0 ∉ cStr (statusStr statusCode) := TextPieces.not_mem_before 0 _
  have hversion : 0 ∉ ascii "HTTP/1.1 " := by decide
  simp [statusLine, hcode, htext, hversion, crlf]

theorem headerFits_contentLength {n : ℕ} (hn : n < 2 ^ 64) :
    HeaderFits (contentLength, decimal n) where
  name := (by decide : 0 ∉ contentLength)
  value := not_mem_decimal (by decide)
  short := by
    have hdigits := length_decimal_le hn
    have hname : contentLength.length = 14 := by decide
    simp only [headerText, crlf, List.length_append, List.length_cons, List.length_nil]
    omega

theorem printed_contentLength {left : Bytes} {n : ℕ}
    (hleft : left = decimal n ∨ ∃ m < 2 ^ 64, left = decimal m) :
    Printed 0 1024 (headerLine (contentLength, left)) (headerText (contentLength, decimal n)) := by
  by_cases hsame : left = decimal n
  · rw [hsame]
    exact printed_header 1024 _
  · obtain ⟨m, hm, rfl⟩ := hleft.resolve_left hsame
    obtain ⟨hline, hshort⟩ := (headerLine_eq_iff _).mpr (headerFits_contentLength hm)
    refine .other hshort ?_
    rw [hline]
    have hdiffer : Differ (decimal m ++ crlf) (decimal n ++ crlf) :=
      .of_separated (not_mem_decimal (by decide)) (not_mem_decimal (by decide)) hsame [10] [10]
    exact hdiffer.prepend (contentLength ++ [58, 32])

namespace RspRun

variable {statusStr : ℤ → Bytes} {s : RspRun}

theorem getElem?_rspHeaders (s : RspRun) (body : Option RspBody) (name : Bytes) :
    (s.rspHeaders body)[name]? =
      if name = contentLength then
        some (s.setHeaders[contentLength]?.getD (decimal (bodyBytes body).length))
      else s.setHeaders[name]? :=
  by
  rw [rspHeaders_eq, getElem?_insertIfNew]

theorem mem_printed_iff (h : s.HasSets) (body : RspBody) (name : Bytes) :
    name ∈ (s.maker.addHeader contentLength (decimal body.1.length)).headers ↔
      name ∈ s.rspHeaders (some body) := by
  rw [RspMaker.addHeader, rspHeaders_eq, Std.ExtTreeMap.mem_iff_isSome_getElem?,
    Std.ExtTreeMap.mem_iff_isSome_getElem?, getElem?_insertIfNew, getElem?_insertIfNew]
  by_cases hname : name = contentLength
  · simp [hname]
  · rw [if_neg hname, if_neg hname, h.kept.same name hname]

def printedValue (s : RspRun) (body : RspBody) (name : Bytes) : Bytes :=
  (s.maker.addHeader contentLength (decimal body.1.length)).headers.getD name []

theorem printedValue_eq (s : RspRun) (body : RspBody) (name : Bytes) :
    s.printedValue body name =
      if name = contentLength then
        s.maker.headers[contentLength]?.getD (decimal body.1.length)
      else s.maker.headers[name]?.getD [] := by
  rw [printedValue, RspMaker.addHeader, Std.ExtTreeMap.getD_eq_getD_getElem?,
    getElem?_insertIfNew]
  split_ifs <;> rfl

theorem printed_line (h : s.HasSets) {body : RspBody}
    (hlength : (s.rspHeaders (some body))[contentLength]? = some (decimal body.1.length))
    {header : Bytes × Bytes} (hheader : header ∈ (s.rspHeaders (some body)).toList) :
    Printed 0 1024 (headerLine (header.1, s.printedValue body header.1))
      (headerText header) := by
  obtain ⟨name, value⟩ := header
  rw [Std.ExtTreeMap.mem_toList_iff_getElem?_eq_some] at hheader
  dsimp only
  by_cases hname : name = contentLength
  · subst hname
    rw [hlength, Option.some.injEq] at hheader
    subst hheader
    refine printed_contentLength ?_
    rw [printedValue_eq, if_pos rfl]
    cases hkept : s.maker.headers[contentLength]? with
    | none => exact .inl rfl
    | some kept =>
        rw [Option.getD_some]
        refine (h.kept.length kept hkept).imp (fun hset => ?_) id
        rw [getElem?_rspHeaders, if_pos rfl, hset] at hlength
        exact Option.some.inj hlength
  · rw [getElem?_rspHeaders, if_neg hname, ← h.kept.same name hname] at hheader
    rw [printedValue_eq, if_neg hname, hheader]
    exact printed_header 1024 _

theorem text_iff (h : s.HasSets) {body : RspBody} (hbody : body.1 ≠ [])
    (hlength : (s.rspHeaders (some body))[contentLength]? = some (decimal body.1.length)) :
    (∀ behind, (s.maker.makeRsp statusStr behind (some body)).1 =
      statusLine statusStr s.statusCode ++
        (s.rspHeaders (some body)).toList.flatMap headerText ++ crlf ++ body.1) ↔
      (statusLine statusStr s.statusCode).length < 1024 ∧
        ∀ header ∈ (s.rspHeaders (some body)).toList,
          headerLine (header.1, s.printedValue body header.1) = headerText header ∧
            (headerLine (header.1, s.printedValue body header.1)).length < 1024 := by
  have hlines : (s.maker.addHeader contentLength (decimal body.1.length)).headers.toList.map
      headerLine = (s.rspHeaders (some body)).toList.map fun header =>
        headerLine (header.1, s.printedValue body header.1) := by
    rw [toList_eq_map (mem_printed_iff h body), List.map_map]
    rfl
  have htext := head_eq_iff (.whole (nul_not_mem_statusLine statusStr s.statusCode))
    (fun _ hheader => printed_line h hlength hheader) (crlf ++ body.1)
  simp only [true_and, ← List.append_assoc] at htext
  rw [← htext]
  simp only [RspMaker.makeRsp_of_ne statusStr _ s.maker hbody, hlines, h.status]

theorem not_rspRight_of_nil (h : s.HasSets) {body : Option RspBody}
    (hbody : bodyBytes body = []) :
    ¬ s.RspRight statusStr body := by
  intro hright
  have htext := congrArg List.length (hright.text fun _ _ => 0)
  have hcopied : ((printLine 0 (fun _ _ => 0) (([], formatBuf) : Bytes × Bytes)
      (statusLine statusStr s.statusCode)).1).length =
        (statusLine statusStr s.statusCode).length := by
    rw [printLine, copied_snprintf_const 0 (by simp), List.nil_append,
      length_through _ _ (by simp)]
  rw [RspMaker.makeRsp_of_nil statusStr _ s.maker hbody, h.status, hcopied] at htext
  simp only [List.length_append, crlf, List.length_cons] at htext
  omega

theorem length_right_iff (s : RspRun) (body : Option RspBody) :
    (s.rspHeaders body)[contentLength]? = some (decimal (bodyBytes body).length) ↔
      ∀ value, s.setHeaders[contentLength]? = some value →
        value = decimal (bodyBytes body).length := by
  rw [getElem?_rspHeaders, if_pos rfl, Option.some.injEq]
  cases s.setHeaders[contentLength]? with
  | none => simp
  | some value => simp

/-- The line of a header is right: the header fits, or it is the length, and no other was
left by an earlier call. -/
theorem line_right_iff (h : s.HasSets) {body : RspBody}
    (hset : ∀ value, s.setHeaders[contentLength]? = some value → value = decimal body.1.length)
    {header : Bytes × Bytes} (hheader : header ∈ (s.rspHeaders (some body)).toList) :
    (headerLine (header.1, s.printedValue body header.1) = headerText header ∧
        (headerLine (header.1, s.printedValue body header.1)).length < 1024) ↔
      if header.1 = contentLength then
        ∀ value, s.maker.headers[contentLength]? = some value → value = decimal body.1.length
      else HeaderFits header := by
  obtain ⟨name, value⟩ := header
  rw [Std.ExtTreeMap.mem_toList_iff_getElem?_eq_some] at hheader
  dsimp only
  rw [printedValue_eq]
  by_cases hname : name = contentLength
  · subst hname
    rw [(length_right_iff s (some body)).mpr hset, Option.some.injEq] at hheader
    subst hheader
    rw [if_pos rfl, if_pos rfl]
    have hfits := (headerLine_eq_iff _).mpr (headerFits_contentLength body.2)
    cases hkept : s.maker.headers[contentLength]? with
    | none => exact iff_of_true hfits (by simp)
    | some kept =>
        simp only [Option.getD_some, Option.some.injEq, forall_eq']
        constructor
        · rintro ⟨hline, -⟩
          rcases h.kept.length kept hkept with hsame | ⟨n, hn, rfl⟩
          · exact hset kept hsame
          · rw [((headerLine_eq_iff _).mpr (headerFits_contentLength hn)).1] at hline
            have hrest := List.append_cancel_left hline
            exact List.append_cancel_right (List.cons.inj (List.cons.inj hrest).2).2
        · rintro rfl
          exact hfits
  · rw [getElem?_rspHeaders, if_neg hname] at hheader
    rw [if_neg hname, if_neg hname, h.kept.same name hname, hheader]
    exact headerLine_eq_iff (name, value)

theorem rspRight_iff_callOk (h : s.HasSets) (body : Option RspBody) :
    s.RspRight statusStr body ↔ s.CallOk statusStr body := by
  by_cases hbody : bodyBytes body = []
  · exact iff_of_false (not_rspRight_of_nil h hbody) fun hok => hok.nonempty hbody
  · cases body with
    | none => exact (hbody rfl).elim
    | some body =>
        constructor
        · intro hright
          have hset := (length_right_iff s (some body)).mp hright.length
          obtain ⟨hstatus, hlines⟩ := (text_iff h hbody hright.length).mp hright.text
          have hright_line := fun header hheader =>
            (line_right_iff h hset hheader).mp (hlines header hheader)
          refine ⟨hbody, hstatus, fun header hheader => ?_, hset, ?_⟩
          · obtain ⟨name, value⟩ := header
            rw [Std.ExtTreeMap.mem_toList_iff_getElem?_eq_some] at hheader
            by_cases hname : name = contentLength
            · subst hname
              rw [hset value hheader]
              exact headerFits_contentLength body.2
            · have hline := hright_line (name, value) (by
                rw [Std.ExtTreeMap.mem_toList_iff_getElem?_eq_some, getElem?_rspHeaders,
                  if_neg hname, hheader])
              rwa [if_neg hname] at hline
          · have hline := hright_line (contentLength, decimal body.1.length) (by
              rw [Std.ExtTreeMap.mem_toList_iff_getElem?_eq_some]
              exact hright.length)
            rwa [if_pos rfl] at hline
        · intro hok
          have hlength := (length_right_iff s (some body)).mpr hok.set
          refine ⟨hlength, (text_iff h hbody hlength).mpr ⟨hok.status, fun header hheader => ?_⟩⟩
          rw [line_right_iff h hok.set hheader]
          split_ifs with hname
          · exact hok.kept
          · obtain ⟨name, value⟩ := header
            rw [Std.ExtTreeMap.mem_toList_iff_getElem?_eq_some, getElem?_rspHeaders,
              if_neg hname] at hheader
            exact hok.headers _ (Std.ExtTreeMap.mem_toList_iff_getElem?_eq_some.mpr hheader)

/-- On one maker: every response is right exactly when every call of `MakeRsp` has a body,
lines that fit, and no other length among the headers. -/
theorem responses_right_iff (statusStr : ℤ → Bytes) (as : List RspAction) :
    Along (step statusStr) (fun _ => True) (StepRight statusStr) init as ↔
      Guarded (step statusStr) (ActionOk statusStr) init as := by
  have hkeep : ∀ s a s', s.HasSets → ActionOk statusStr s a →
      step statusStr s a = some s' →
        s'.HasSets ∧ StepRight statusStr s a s' := by
    intro s a s' h ha hstep
    refine ⟨step_hasSets statusStr h hstep, ?_⟩
    cases a with
    | makeRsp behind body => exact (rspRight_iff_callOk h body).mpr ha
    | _ => trivial
  have hneed : ∀ s a s', s.HasSets → step statusStr s a = some s' →
      StepRight statusStr s a s' → True → ActionOk statusStr s a := by
    intro s a s' h _ hright _
    cases a with
    | makeRsp behind body => exact (rspRight_iff_callOk h body).mp hright
    | _ => trivial
  have hgood : ∀ s : RspRun, s.HasSets → True := fun _ _ => trivial
  exact along_iff_guarded hgood hkeep hneed as HasSets.init

theorem not_responses_right_empty :
    ¬ ∀ (statusStr : ℤ → Bytes) (as : List RspAction),
      Along (step statusStr) (fun _ => True) (StepRight statusStr) init as := by
  intro hall
  have hright := hall (fun _ => ascii "OK") [.makeRsp (fun _ _ => 0) (some ⟨[], by decide⟩)]
  exact not_rspRight_of_nil .init rfl (hright.2 _ rfl).1

end RspRun

end CommonComponent
