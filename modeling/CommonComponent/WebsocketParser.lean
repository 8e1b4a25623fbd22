import CommonComponent.ProtoMsgCodec
import Mathlib.Tactic

/-!
# The WebSocket frame parser

`websocket_parser_execute` goes through a chunk byte by byte, keeps what it has
read of a frame header in its struct, and calls back with each header, each piece of
a body and each end.  The callbacks change nothing that it reads, so the model of it
returns the list of calls, each with what it finds in the struct.

Whatever the bytes and wherever the chunks end, the calls for one frame are a header,
then pieces that follow each other from offset 0 on and stay within the length of the
header, then an end behind the last byte.
-/

namespace CommonComponent

inductive WsState
  | start
  | head
  | length
  | mask
  | body
deriving DecidableEq

/-- `websocket_flags`: an opcode and two marks. -/
structure WsFlags where
  opcode : ℕ
  fin : Bool
  hasMask : Bool
deriving DecidableEq

def wsOpContinue : ℕ := 0x0
def wsOpText : ℕ := 0x1
def wsOpBinary : ℕ := 0x2
def wsOpClose : ℕ := 0x8
def wsOpPing : ℕ := 0x9
def wsOpPong : ℕ := 0xA

structure WebsocketParser where
  state : WsState
  flags : WsFlags
  mask : Bytes
  length : ℕ
  require : ℕ
  offset : ℕ
deriving DecidableEq

/-- A call of the parser, with what the callback reads of its struct. -/
inductive WsReport
  | frameHeader (flags : WsFlags) (mask : Bytes) (length : ℕ)
  | frameBody (flags : WsFlags) (mask : Bytes) (offset : ℕ) (data : Bytes)
  | frameEnd
deriving DecidableEq

namespace WebsocketParser

def init : WebsocketParser where
  state := .start
  flags := ⟨0, false, false⟩
  mask := [0, 0, 0, 0]
  length := 0
  require := 0
  offset := 0

def startByte (wp : WebsocketParser) (cc : UInt8) : WebsocketParser :=
  { wp with
    offset := 0
    length := 0
    flags := ⟨(cc &&& 0xF).toNat, cc &&& 0x80 ≠ 0, false⟩
    state := .head }

/-- The header is complete: the body follows, or the end of an empty frame. -/
def headerDone (wp : WebsocketParser) : WebsocketParser × List WsReport :=
  if wp.length ≠ 0 then
    ({ wp with state := .body, require := wp.length },
      [.frameHeader wp.flags wp.mask wp.length])
  else
    ({ wp with state := .start },
      [.frameHeader wp.flags wp.mask wp.length, .frameEnd])

def lengthDone (wp : WebsocketParser) : WebsocketParser × List WsReport :=
  if wp.flags.hasMask then ({ wp with state := .mask, require := 4 }, [])
  else wp.headerDone

def headByte (wp : WebsocketParser) (cc : UInt8) : WebsocketParser × List WsReport :=
  let length := (cc &&& 0x7F).toNat
  let flags := { wp.flags with hasMask := cc &&& 0x80 ≠ 0 }
  if 126 ≤ length then
    ({ wp with
        flags := flags
        require := if length = 127 then 8 else 2
        length := 0
        state := .length }, [])
  else lengthDone { wp with flags := flags, length := length }

def lengthByte (wp : WebsocketParser) (cc : UInt8) :
    WebsocketParser × List WsReport :=
  let read := { wp with
    length := wp.length * 256 + cc.toNat
    require := wp.require - 1 }
  if read.require = 0 then read.lengthDone else (read, [])

def maskByte (wp : WebsocketParser) (cc : UInt8) : WebsocketParser × List WsReport :=
  let read := { wp with
    mask := wp.mask.set (4 - wp.require) cc
    require := wp.require - 1 }
  if read.require = 0 then read.headerDone else (read, [])

/-- The loop over the chunk: `done` bytes of it have been read, `data` is left, and
`frameOffset` is the local variable of that name. -/
def executeLoop : ℕ → WebsocketParser → ℕ → ℕ → Bytes →
    WebsocketParser × List WsReport
  | 0, wp, _, _, _ => (wp, [])
  | _ + 1, wp, _, _, [] => (wp, [])
  | fuel + 1, wp, frameOffset, done, cc :: rest =>
      match wp.state with
      | .start => executeLoop fuel (wp.startByte cc) (frameOffset + 1) (done + 1) rest
      | .head =>
          let (wp', reports) := wp.headByte cc
          (executeLoop fuel wp' (frameOffset + 1) (done + 1) rest).map id (reports ++ ·)
      | .length =>
          let (wp', reports) := wp.lengthByte cc
          (executeLoop fuel wp' (frameOffset + 1) (done + 1) rest).map id (reports ++ ·)
      | .mask =>
          let (wp', reports) := wp.maskByte cc
          (executeLoop fuel wp' (frameOffset + 1) (done + 1) rest).map id (reports ++ ·)
      | .body =>
          let data := cc :: rest
          if wp.require = 0 then
            (executeLoop fuel { wp with state := .start } frameOffset (done + 1)
              rest).map id (.frameEnd :: ·)
          else if wp.require ≤ data.length then
            let read := done + wp.require
            (executeLoop fuel { wp with require := 0, state := .start } read read
              (data.drop wp.require)).map id
                ([.frameBody wp.flags wp.mask wp.offset (data.take wp.require),
                  .frameEnd] ++ ·)
          else
            ({ wp with
                require := wp.require - data.length
                offset := wp.offset + (done + data.length - frameOffset) },
              [.frameBody wp.flags wp.mask wp.offset data])

/-- `websocket_parser_execute`. -/
def execute (wp : WebsocketParser) (data : Bytes) :
    WebsocketParser × List WsReport :=
  wp.executeLoop data.length 0 0 data

end WebsocketParser

/-- How much of the frame in hand has been reported. -/
structure FrameProgress where
  flags : WsFlags
  mask : Bytes
  length : ℕ
  received : ℕ
deriving DecidableEq

/-- The calls belong to frames, from the one in hand at first to the one in hand at
last. -/
def WellReported : Option FrameProgress → List WsReport → Option FrameProgress → Prop
  | inHand, [], inHand' => inHand = inHand'
  | none, .frameHeader flags mask length :: rest, inHand' =>
      WellReported (some ⟨flags, mask, length, 0⟩) rest inHand'
  | some frame, .frameBody flags mask offset data :: rest, inHand' =>
      flags = frame.flags ∧ mask = frame.mask ∧ offset = frame.received ∧
        frame.received + data.length ≤ frame.length ∧
          WellReported
            (some { frame with received := frame.received + data.length }) rest inHand'
  | some frame, .frameEnd :: rest, inHand' =>
      frame.received = frame.length ∧ WellReported none rest inHand'
  | _, _ :: _, _ => False

theorem WellReported.nil (inHand : Option FrameProgress) :
    WellReported inHand [] inHand := by
  cases inHand <;> rfl

theorem WellReported.append {inHand inHand' inHand'' : Option FrameProgress}
    {reports more : List WsReport} (h : WellReported inHand reports inHand')
    (h' : WellReported inHand' more inHand'') :
    WellReported inHand (reports ++ more) inHand'' := by
  induction reports generalizing inHand with
  | nil =>
      have heq : inHand = inHand' := by cases inHand <;> exact h
      exact heq ▸ h'
  | cons report rest ih =>
      cases inHand with
      | none =>
          cases report with
          | frameHeader flags mask length => exact ih h
          | _ => exact h.elim
      | some frame =>
          cases report with
          | frameHeader flags mask length => exact h.elim
          | frameBody flags mask offset data =>
              obtain ⟨hflags, hmask, hoffset, hle, hrest⟩ := h
              exact ⟨hflags, hmask, hoffset, hle, ih hrest⟩
          | frameEnd => exact ⟨h.1, ih h.2⟩

namespace WebsocketParser

def inHand (wp : WebsocketParser) : Option FrameProgress :=
  match wp.state with
  | .body => some ⟨wp.flags, wp.mask, wp.length, wp.offset⟩
  | _ => none

/-- What is still required of a frame is what its length leaves. -/
structure Ok (wp : WebsocketParser) : Prop where
  required : wp.state = .length ∨ wp.state = .mask → 0 < wp.require
  body : wp.state = .body → 0 < wp.require ∧ wp.offset + wp.require = wp.length
  header : wp.state ≠ .body → wp.state ≠ .start → wp.offset = 0

theorem Ok.init : WebsocketParser.init.Ok where
  required := by simp [WebsocketParser.init]
  body := by simp [WebsocketParser.init]
  header := by simp [WebsocketParser.init]

/-- From one state of the parser to another with calls that belong to frames. -/
structure Reports (wp : WebsocketParser)
    (result : WebsocketParser × List WsReport) : Prop where
  ok : result.1.Ok
  reported : WellReported wp.inHand result.2 result.1.inHand

theorem Reports.then {wp wp' : WebsocketParser} {reports : List WsReport}
    {result : WebsocketParser × List WsReport} (h : Reports wp (wp', reports))
    (h' : Reports wp' result) : Reports wp (result.map id (reports ++ ·)) where
  ok := h'.ok
  reported := h.reported.append h'.reported

theorem headerDone_reports {wp : WebsocketParser} (hoffset : wp.offset = 0) :
    wp.headerDone.1.Ok ∧ WellReported none wp.headerDone.2 wp.headerDone.1.inHand := by
  unfold headerDone
  split_ifs with hlength
  · refine ⟨⟨by simp, fun _ => ⟨Nat.pos_of_ne_zero hlength, ?_⟩, by simp⟩, ?_⟩
    · simp [hoffset]
    · simp [WellReported, inHand, hoffset]
  · refine ⟨⟨by simp, by simp, by simp⟩, ?_⟩
    have hzero : 0 = wp.length := by omega
    simp [WellReported, inHand, ← hzero]

theorem lengthDone_reports {wp : WebsocketParser} (hoffset : wp.offset = 0) :
    wp.lengthDone.1.Ok ∧ WellReported none wp.lengthDone.2 wp.lengthDone.1.inHand := by
  unfold lengthDone
  split_ifs
  · exact ⟨⟨by simp, by simp, fun _ _ => hoffset⟩, rfl⟩
  · exact headerDone_reports hoffset

theorem startByte_ok (wp : WebsocketParser) (cc : UInt8) : (wp.startByte cc).Ok where
  required := by simp [startByte]
  body := by simp [startByte]
  header := fun _ _ => rfl

theorem headByte_reports {wp : WebsocketParser} (hoffset : wp.offset = 0)
    (cc : UInt8) :
    (wp.headByte cc).1.Ok ∧
      WellReported none (wp.headByte cc).2 (wp.headByte cc).1.inHand := by
  unfold headByte
  dsimp only
  split_ifs
  · exact ⟨⟨by simp, by simp, fun _ _ => hoffset⟩, rfl⟩
  · exact ⟨⟨by simp, by simp, fun _ _ => hoffset⟩, rfl⟩
  · exact lengthDone_reports hoffset

theorem lengthByte_reports {wp : WebsocketParser} (hoffset : wp.offset = 0)
    (hstate : wp.state = .length) (cc : UInt8) :
    (wp.lengthByte cc).1.Ok ∧
      WellReported none (wp.lengthByte cc).2 (wp.lengthByte cc).1.inHand := by
  unfold lengthByte
  dsimp only
  split_ifs with hdone
  · exact lengthDone_reports hoffset
  · refine ⟨⟨fun _ => Nat.pos_of_ne_zero hdone, ?_, fun _ _ => hoffset⟩, ?_⟩
    · simp [hstate]
    · simp [WellReported, inHand, hstate]

theorem maskByte_reports {wp : WebsocketParser} (hoffset : wp.offset = 0)
    (hstate : wp.state = .mask) (cc : UInt8) :
    (wp.maskByte cc).1.Ok ∧
      WellReported none (wp.maskByte cc).2 (wp.maskByte cc).1.inHand := by
  unfold maskByte
  dsimp only
  split_ifs with hdone
  · exact headerDone_reports hoffset
  · refine ⟨⟨fun _ => Nat.pos_of_ne_zero hdone, ?_, fun _ _ => hoffset⟩, ?_⟩
    · simp [hstate]
    · simp [WellReported, inHand, hstate]

/-- Each pass of the loop reads a byte at least, so the fuel is enough. -/
theorem executeLoop_fuel {fuel fuel' : ℕ} {wp : WebsocketParser}
    {frameOffset done : ℕ} {data : Bytes} (hfuel : data.length ≤ fuel)
    (hfuel' : data.length ≤ fuel') :
    wp.executeLoop fuel frameOffset done data =
      wp.executeLoop fuel' frameOffset done data := by
  induction fuel generalizing fuel' wp frameOffset done data with
  | zero =>
      have hnil : data = [] := List.length_eq_zero_iff.mp (Nat.le_zero.mp hfuel)
      subst hnil
      cases fuel' <;> rfl
  | succ fuel ih =>
      cases data with
      | nil => cases fuel' <;> rfl
      | cons cc rest =>
          obtain ⟨more, rfl⟩ : ∃ more, fuel' = more + 1 :=
            Nat.exists_eq_add_one_of_ne_zero (by simp at hfuel'; omega)
          rw [List.length_cons] at hfuel hfuel'
          have hrest : ∀ wp' frameOffset' done',
              executeLoop fuel wp' frameOffset' done' rest =
                executeLoop more wp' frameOffset' done' rest :=
            fun _ _ _ => ih (by omega) (by omega)
          have hdrop : wp.require ≠ 0 → ∀ wp' frameOffset' done',
              executeLoop fuel wp' frameOffset' done'
                  ((cc :: rest).drop wp.require) =
                executeLoop more wp' frameOffset' done'
                  ((cc :: rest).drop wp.require) := by
            intro hpos wp' frameOffset' done'
            refine ih ?_ ?_ <;>
              · rw [List.length_drop, List.length_cons]
                omega
          simp only [executeLoop, hrest]
          cases wp.state with
          | body =>
              dsimp only
              split_ifs with hzero
              · rfl
              · rw [hdrop hzero]
              · rfl
          | _ => rfl

/-- `frame_offset` is the number of bytes that have been read of the chunk. -/
theorem executeLoop_reports {fuel done : ℕ} {wp : WebsocketParser} {data : Bytes}
    (h : wp.Ok) : Reports wp (wp.executeLoop fuel done done data) := by
  induction fuel generalizing wp done data with
  | zero => exact ⟨h, .nil _⟩
  | succ fuel ih =>
      cases data with
      | nil => exact ⟨h, .nil _⟩
      | cons cc rest =>
          cases hstate : wp.state with
          | start =>
              have hnone : wp.inHand = none := by simp [inHand, hstate]
              have hloop : Reports (wp.startByte cc)
                  ((wp.startByte cc).executeLoop fuel (done + 1) (done + 1) rest) :=
                ih (wp.startByte_ok cc)
              simp only [executeLoop, hstate]
              exact ⟨hloop.ok, hnone ▸ hloop.reported⟩
          | head =>
              have hnone : wp.inHand = none := by simp [inHand, hstate]
              obtain ⟨hok, hreports⟩ :=
                headByte_reports (h.header (by simp [hstate]) (by simp [hstate])) cc
              simp only [executeLoop, hstate]
              exact Reports.then ⟨hok, hnone ▸ hreports⟩ (ih hok)
          | length =>
              have hnone : wp.inHand = none := by simp [inHand, hstate]
              obtain ⟨hok, hreports⟩ := lengthByte_reports
                (h.header (by simp [hstate]) (by simp [hstate])) hstate cc
              simp only [executeLoop, hstate]
              exact Reports.then ⟨hok, hnone ▸ hreports⟩ (ih hok)
          | mask =>
              have hnone : wp.inHand = none := by simp [inHand, hstate]
              obtain ⟨hok, hreports⟩ := maskByte_reports
                (h.header (by simp [hstate]) (by simp [hstate])) hstate cc
              simp only [executeLoop, hstate]
              exact Reports.then ⟨hok, hnone ▸ hreports⟩ (ih hok)
          | body =>
              obtain ⟨hpos, hlength⟩ := h.body hstate
              have hhand : wp.inHand =
                  some ⟨wp.flags, wp.mask, wp.length, wp.offset⟩ := by
                simp [inHand, hstate]
              simp only [executeLoop, hstate, if_neg hpos.ne']
              split_ifs with hle
              · have hok : Ok { wp with require := 0, state := .start } :=
                  ⟨by simp, by simp, by simp⟩
                refine Reports.then ⟨hok, ?_⟩ (ih hok)
                rw [hhand]
                simp only [WellReported, inHand, List.length_take]
                refine ⟨trivial, trivial, trivial, by omega, by omega, trivial⟩
              · refine ⟨⟨by simp, fun _ => ?_, by simp⟩, ?_⟩
                · simp only
                  omega
                · rw [hhand]
                  simp only [WellReported, inHand, Option.some.injEq,
                    FrameProgress.mk.injEq, true_and]
                  omega

/-- **Every call belongs to a frame**, for every chunk, from whatever state earlier
chunks have left. -/
theorem execute_reports {wp : WebsocketParser} (h : wp.Ok) (data : Bytes) :
    Reports wp (wp.execute data) :=
  executeLoop_reports h

end WebsocketParser

end CommonComponent
