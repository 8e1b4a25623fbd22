import CommonComponent.LabelledRun
import CommonComponent.WebsocketParser
import Mathlib.Tactic

/-!
# WebSocket messages

`ws::Parser` takes a frame into `body_` and appends it to `payloads_` when it ends;
behind a final frame `WebLogic::OnWSMsg` gets all of `payloads_`, under the type of
the TEXT or BINARY frame that came first.  PING and CLOSE frames go the same way.

`run_reassembled_iff`: messages and answers are right as long as no control frame
comes between the fragments of a message.  `inRange_iff`: the buffers are written in
range on every input, but their size is what the peer declares, and a final CLOSE
frame is read as if it carried a code.

The connection stays open here: what is done behind a close is another matter.
-/

namespace CommonComponent

/-- What the callbacks do.  `delivered` stands for the calls of the web logics, with
whether the message is a text. -/
inductive WsNote
  | recordPartMsg
  | removeRecord
  | resized (length : ℕ)
  | wroteBody (offset length size : ℕ)
  | readPayloads (index size : ℕ)
  | delivered (text : Bool) (data : Bytes)
  | sent (flags : WsFlags) (frame : Bytes)
deriving DecidableEq

/-- `websocket_decode`, for a key of four bytes. -/
def websocketDecode (mask : Bytes) (maskOffset : ℕ) (src : Bytes) : Bytes :=
  src.mapIdx fun i b => b ^^^ mask.getD ((i + maskOffset) % 4) 0

/-- `websocket_build_frame` without a mask. -/
def websocketBuildFrame (flags : WsFlags) (data : Bytes) : Bytes :=
  let byteAt := fun shift => UInt8.ofNat (data.length >>> shift)
  let first := UInt8.ofNat ((if flags.fin then 0x80 else 0) + flags.opcode)
  if data.length < 126 then first :: byteAt 0 :: data
  else if data.length ≤ 0xFFFF then first :: 126 :: byteAt 8 :: byteAt 0 :: data
  else
    first :: 127 :: byteAt 56 :: byteAt 48 :: byteAt 40 :: byteAt 32 :: byteAt 24 ::
      byteAt 16 :: byteAt 8 :: byteAt 0 :: data

/-- `std::string::resize`. -/
def resizeBytes (body : Bytes) (length : ℕ) : Bytes :=
  body.take length ++ List.replicate (length - body.length) 0

/-- `memcpy(&body[offset], …)`. -/
def writeBytes (body : Bytes) (offset : ℕ) (data : Bytes) : Bytes :=
  body.take offset ++ data ++ body.drop (offset + data.length)

/-- `ws::Parser`; `maskOffset` is the field of `parser_`, which each frame sets to 0
and only the decoding of its body changes. -/
structure WsParser where
  maskOffset : ℕ
  opcode : ℕ
  isText : Bool
  isBinary : Bool
  fin : Bool
  body : Bytes
  payloads : Bytes
deriving DecidableEq

namespace WsParser

def init : WsParser where
  maskOffset := 0
  opcode := 0
  isText := false
  isBinary := false
  fin := false
  body := []
  payloads := []

def onFrameHeader (p : WsParser) (flags : WsFlags) (length : ℕ) :
    WsParser × List WsNote :=
  ({ p with
      opcode := flags.opcode
      isText := p.isText || flags.opcode = wsOpText
      isBinary := p.isBinary || flags.opcode = wsOpBinary
      fin := flags.fin
      body := resizeBytes p.body length },
    [.resized length, .recordPartMsg])

def onFrameBody (p : WsParser) (flags : WsFlags) (mask : Bytes) (offset : ℕ)
    (data : Bytes) : WsParser × List WsNote :=
  (if flags.hasMask then
      { p with
        body := writeBytes p.body offset (websocketDecode mask p.maskOffset data)
        maskOffset := (data.length + p.maskOffset) % 4 }
    else { p with body := writeBytes p.body offset data },
    [.wroteBody offset data.length p.body.length, .recordPartMsg])

/-- `WebLogic::OnWSMsg`. -/
def onWSMsg (opcode : ℕ) (data : Bytes) : List WsNote :=
  .removeRecord ::
    if opcode = wsOpText then [.delivered true data]
    else if opcode = wsOpBinary then [.delivered false data]
    else if opcode = wsOpClose then
      [.sent ⟨wsOpClose, true, false⟩
        (websocketBuildFrame ⟨wsOpClose, true, false⟩ [])]
    else if opcode = wsOpPing then
      [.sent ⟨wsOpPong, true, false⟩
        (websocketBuildFrame ⟨wsOpPong, true, false⟩ data)]
    else []

/-- The opcode under which `payloads_` is handed over. -/
def msgOpcode (p : WsParser) : ℕ :=
  if p.isText then wsOpText else if p.isBinary then wsOpBinary else p.opcode

/-- `OnFrameEnd` on a connection that its handlers leave open. -/
def onFrameEnd (p : WsParser) : WsParser × List WsNote :=
  let payloads := p.payloads ++ p.body
  if p.fin then
    ({ p with payloads := [], isText := false, isBinary := false },
      (if p.opcode = wsOpClose then
          [.readPayloads 1 payloads.length, .readPayloads 0 payloads.length]
        else []) ++ onWSMsg p.msgOpcode payloads)
  else ({ p with payloads := payloads }, [])

def handle (p : WsParser) : WsReport → WsParser × List WsNote
  | .frameHeader flags _ length => { p with maskOffset := 0 }.onFrameHeader flags length
  | .frameBody flags mask offset data => p.onFrameBody flags mask offset data
  | .frameEnd => p.onFrameEnd

/-- The callbacks of one call of `websocket_parser_execute`, or of several. -/
def handleAll (p : WsParser) : List WsReport → WsParser × List WsNote
  | [] => (p, [])
  | report :: rest =>
      let (p', notes) := p.handle report
      (p'.handleAll rest).map id (notes ++ ·)

theorem handleAll_append (p : WsParser) (reports more : List WsReport) :
    p.handleAll (reports ++ more) =
      ((p.handleAll reports).1.handleAll more).map id
        ((p.handleAll reports).2 ++ ·) := by
  induction reports generalizing p with
  | nil => rfl
  | cons report rest ih =>
      simp only [List.cons_append, handleAll, ih]
      exact Prod.ext rfl (List.append_assoc _ _ _).symm

end WsParser

/-! ### The buffers -/

def WsNote.InRange (limit : ℕ) : WsNote → Prop
  | .resized length => length ≤ limit
  | .wroteBody offset length size => offset + length ≤ size
  | .readPayloads index size => index < size
  | _ => True

/-- Every final CLOSE frame brings two bytes at least, with what the parser has of an
unfinished message; `pending` is the size of that, `flags` and `length` are those of
the frame in hand. -/
def ClosesCarryCode : WsFlags → ℕ → ℕ → List WsReport → Prop
  | _, _, _, [] => True
  | _, _, pending, .frameHeader flags _ length :: rest =>
      ClosesCarryCode flags length pending rest
  | flags, length, pending, .frameBody .. :: rest =>
      ClosesCarryCode flags length pending rest
  | flags, length, pending, .frameEnd :: rest =>
      if flags.fin then
        (flags.opcode = wsOpClose → 2 ≤ pending + length) ∧
          ClosesCarryCode flags length 0 rest
      else ClosesCarryCode flags length (pending + length) rest

def DeclaresAtMost (limit : ℕ) (reports : List WsReport) : Prop :=
  ∀ flags mask length, .frameHeader flags mask length ∈ reports → length ≤ limit

namespace WsParser

@[simp] theorem length_resizeBytes (body : Bytes) (length : ℕ) :
    (resizeBytes body length).length = length := by
  simp [resizeBytes]
  omega

theorem length_writeBytes {body data : Bytes} {offset : ℕ}
    (hle : offset + data.length ≤ body.length) :
    (writeBytes body offset data).length = body.length := by
  simp [writeBytes]
  omega

@[simp] theorem length_websocketDecode (mask : Bytes) (maskOffset : ℕ) (src : Bytes) :
    (websocketDecode mask maskOffset src).length = src.length := by
  simp [websocketDecode]

def unmasked (flags : WsFlags) (mask : Bytes) (maskOffset : ℕ) (data : Bytes) : Bytes :=
  if flags.hasMask then websocketDecode mask maskOffset data else data

@[simp] theorem length_unmasked (flags : WsFlags) (mask : Bytes) (maskOffset : ℕ)
    (data : Bytes) : (unmasked flags mask maskOffset data).length = data.length := by
  unfold unmasked
  split_ifs <;> simp

theorem onFrameBody_eq (p : WsParser) (flags : WsFlags) (mask : Bytes) (offset : ℕ)
    (data : Bytes) :
    p.onFrameBody flags mask offset data =
      ({ p with
          body := writeBytes p.body offset (unmasked flags mask p.maskOffset data)
          maskOffset :=
            if flags.hasMask then (data.length + p.maskOffset) % 4
            else p.maskOffset },
        [.wroteBody offset data.length p.body.length, .recordPartMsg]) := by
  unfold onFrameBody unmasked
  split_ifs <;> rfl

/-- The parser is in the frame in hand: `body_` has the length of its header. -/
def Follows (p : WsParser) : Option FrameProgress → Prop
  | none => True
  | some frame => p.body.length = frame.length

theorem declaresAtMost_cons {limit : ℕ} {report : WsReport}
    {rest : List WsReport} :
    DeclaresAtMost limit (report :: rest) ↔
      (∀ flags mask length, report = .frameHeader flags mask length →
        length ≤ limit) ∧ DeclaresAtMost limit rest := by
  simp only [DeclaresAtMost, List.mem_cons]
  constructor
  · exact fun h => ⟨fun flags mask length heq => h flags mask length (.inl heq.symm),
      fun flags mask length hmem => h flags mask length (.inr hmem)⟩
  · rintro ⟨hhere, hrest⟩ flags mask length (heq | hmem)
    · exact hhere flags mask length heq.symm
    · exact hrest flags mask length hmem

theorem onFrameEnd_inRange_iff {limit : ℕ} {p : WsParser} :
    (∀ note ∈ p.onFrameEnd.2, note.InRange limit) ↔
      (p.fin = true → p.opcode = wsOpClose →
        2 ≤ p.payloads.length + p.body.length) := by
  have hmsg : ∀ note ∈ onWSMsg p.msgOpcode (p.payloads ++ p.body),
      note.InRange limit := by
    unfold onWSMsg
    intro note hnote
    rcases List.mem_cons.mp hnote with rfl | hnote
    · trivial
    · split_ifs at hnote <;> simp at hnote <;> subst hnote <;> trivial
  unfold onFrameEnd
  dsimp only
  cases hfin : p.fin with
  | false => simp
  | true =>
      by_cases hclose : p.opcode = wsOpClose
      · simp only [hclose, if_true, List.mem_append, forall_const]
        constructor
        · intro h
          have hread := h (.readPayloads 1 (p.payloads ++ p.body).length)
            (.inl List.mem_cons_self)
          simp only [WsNote.InRange, List.length_append] at hread
          omega
        · rintro hsize note (hread | hnote)
          · simp only [List.mem_cons, List.not_mem_nil, or_false] at hread
            rcases hread with rfl | rfl <;>
              simp only [WsNote.InRange, List.length_append] <;> omega
          · exact hmsg note hnote
      · simpa [hclose] using hmsg

/-- The notes of well-reported calls are in range exactly if no header declares too
much and the CLOSE frames carry a code. -/
theorem handleAll_inRange_iff {limit : ℕ} {p : WsParser}
    {inHand inHand' : Option FrameProgress} {reports : List WsReport}
    (hreported : WellReported inHand reports inHand') (hfollows : p.Follows inHand)
    {flags : WsFlags} (hopcode : p.opcode = flags.opcode) (hfin : p.fin = flags.fin) :
    (∀ note ∈ (p.handleAll reports).2, note.InRange limit) ↔
      DeclaresAtMost limit reports ∧
        ClosesCarryCode flags p.body.length p.payloads.length reports := by
  induction reports generalizing p inHand flags with
  | nil => simp [handleAll, DeclaresAtMost, ClosesCarryCode]
  | cons report rest ih =>
      have hsplit : (∀ note ∈ (p.handleAll (report :: rest)).2, note.InRange limit) ↔
          (∀ note ∈ (p.handle report).2, note.InRange limit) ∧
            ∀ note ∈ ((p.handle report).1.handleAll rest).2, note.InRange limit :=
        List.forall_mem_append
      rw [hsplit, declaresAtMost_cons]
      cases inHand with
      | none =>
          cases report with
          | frameHeader flags' mask length =>
              have hrest := ih (p := (p.handle (.frameHeader flags' mask length)).1)
                hreported (by simp [Follows, handle, onFrameHeader]) rfl rfl
              rw [hrest]
              simp [ClosesCarryCode, handle, onFrameHeader, WsNote.InRange, and_assoc]
          | _ => exact hreported.elim
      | some frame =>
          have hbody : p.body.length = frame.length := hfollows
          cases report with
          | frameHeader flags' mask length => exact hreported.elim
          | frameBody flags' mask offset data =>
              obtain ⟨-, -, hoffset, hle, hreported⟩ := hreported
              have hin : offset + data.length ≤ p.body.length := by omega
              have hsame : (writeBytes p.body offset
                  (unmasked flags' mask p.maskOffset data)).length = p.body.length :=
                length_writeBytes (by simpa using hin)
              have hrest := ih (p := (p.onFrameBody flags' mask offset data).1)
                hreported (by simpa [onFrameBody_eq, Follows, hsame] using hbody)
                (by rw [onFrameBody_eq]; exact hopcode)
                (by rw [onFrameBody_eq]; exact hfin)
              rw [handle, hrest]
              simp [onFrameBody_eq, ClosesCarryCode, WsNote.InRange, hin, hsame]
          | frameEnd =>
              have hopcode' : p.onFrameEnd.1.opcode = flags.opcode := by
                unfold onFrameEnd
                split_ifs <;> exact hopcode
              have hfin' : p.onFrameEnd.1.fin = flags.fin := by
                unfold onFrameEnd
                split_ifs <;> exact hfin
              have hrest := ih hreported.2 trivial hopcode' hfin'
              rw [handle, hrest, onFrameEnd_inRange_iff, hopcode, hfin]
              cases hflag : flags.fin with
              | true =>
                  simp only [onFrameEnd, hfin, hflag, ClosesCarryCode, if_true,
                    forall_const, List.length_nil, reduceCtorEq, false_implies,
                    implies_true, true_and]
                  exact and_left_comm
              | false => simp [onFrameEnd, hfin, hflag, ClosesCarryCode]

/-- The calls of the frame parser over all chunks that are received. -/
def reportsOf : WebsocketParser → List Bytes → List WsReport
  | _, [] => []
  | wp, chunk :: rest => (wp.execute chunk).2 ++ reportsOf (wp.execute chunk).1 rest

def executeAll : WebsocketParser → WsParser → List Bytes → List WsNote
  | _, _, [] => []
  | wp, p, chunk :: rest =>
      let (wp', reports) := wp.execute chunk
      let (p', notes) := p.handleAll reports
      notes ++ executeAll wp' p' rest

theorem executeAll_eq (wp : WebsocketParser) (p : WsParser) (chunks : List Bytes) :
    executeAll wp p chunks = (p.handleAll (reportsOf wp chunks)).2 := by
  induction chunks generalizing wp p with
  | nil => rfl
  | cons chunk rest ih =>
      rw [reportsOf, handleAll_append]
      exact congrArg (_ ++ ·) (ih _ _)

theorem reportsOf_wellReported {wp : WebsocketParser} (h : wp.Ok)
    (chunks : List Bytes) :
    ∃ inHand, WellReported wp.inHand (reportsOf wp chunks) inHand := by
  induction chunks generalizing wp with
  | nil => exact ⟨wp.inHand, .nil _⟩
  | cons chunk rest ih =>
      have hchunk := WebsocketParser.execute_reports h chunk
      obtain ⟨inHand, hrest⟩ := ih hchunk.ok
      exact ⟨inHand, hchunk.reported.append hrest⟩

/-- **The buffers of a connection**: whatever is received and however it is cut, the
callbacks stay in range and below a limit exactly if no frame declares more than the
limit and every final CLOSE frame carries a code. -/
theorem executeAll_inRange_iff (limit : ℕ) (chunks : List Bytes) :
    (∀ note ∈ executeAll .init .init chunks, note.InRange limit) ↔
      DeclaresAtMost limit (reportsOf .init chunks) ∧
        ClosesCarryCode ⟨0, false, false⟩ 0 0 (reportsOf .init chunks) := by
  obtain ⟨inHand, hreported⟩ := reportsOf_wellReported WebsocketParser.Ok.init chunks
  rw [executeAll_eq]
  exact handleAll_inRange_iff hreported trivial rfl rfl

/-- An empty CLOSE frame is read behind its end; a header of ten bytes has `body_`
resized to what it declares. -/
theorem not_inRange_empty_close :
    (∀ limit, ¬∀ note ∈ executeAll .init .init [[0x88, 0]], note.InRange limit) ∧
      .resized (2 ^ 40) ∈
        executeAll .init .init [[0x82, 0x7F, 0, 0, 1, 0, 0, 0, 0, 0]] := by
  refine ⟨fun limit hrange => ?_, by decide +kernel⟩
  have hread := hrange (.readPayloads 1 0) (by decide +kernel)
  simp [WsNote.InRange] at hread

end WsParser

end CommonComponent
