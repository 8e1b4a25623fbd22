import CommonComponent.WsParser
import Mathlib.Tactic

/-!
# Messages in fragments

A message is sent as one frame or as several: the first names the type, the others
are continuations, the last one is final.  Control frames may come in between.
`WsFrame` is a frame with the pieces in which the frame parser reports its body;
`WsRun` runs the callbacks on frames, beside what the messages and answers should be.

A control frame has the same flags, the same `payloads_` and the same end as a data
frame.  Where no message is unfinished that does no harm.
-/

namespace CommonComponent

open LabelledRun

structure WsFrame where
  flags : WsFlags
  mask : Bytes
  pieces : List Bytes
deriving DecidableEq

namespace WsFrame

/-- The body without its mask: each byte is masked with the key byte of its place. -/
def payload (frame : WsFrame) : Bytes :=
  if frame.flags.hasMask then
    frame.pieces.flatten.mapIdx fun i b => b ^^^ frame.mask.getD (i % 4) 0
  else frame.pieces.flatten

/-- The calls for the pieces that are left, from an offset on. -/
def bodyReports (flags : WsFlags) (mask : Bytes) : ℕ → List Bytes → List WsReport
  | _, [] => []
  | offset, data :: rest =>
      .frameBody flags mask offset data ::
        bodyReports flags mask (offset + data.length) rest

def reports (frame : WsFrame) : List WsReport :=
  .frameHeader frame.flags frame.mask frame.pieces.flatten.length ::
    bodyReports frame.flags frame.mask 0 frame.pieces ++ [.frameEnd]

def isControl (frame : WsFrame) : Bool :=
  frame.flags.opcode = wsOpClose || frame.flags.opcode = wsOpPing ||
    frame.flags.opcode = wsOpPong

/-- What may follow while `pending` is unfinished: a control frame, which is final,
a first fragment or a continuation. -/
def mayFollow (frame : WsFrame) (pending : Option (Bool × Bytes)) : Bool :=
  if frame.isControl then frame.flags.fin
  else if pending.isSome then frame.flags.opcode = wsOpContinue
  else frame.flags.opcode = wsOpText || frame.flags.opcode = wsOpBinary

def extend (frame : WsFrame) : Option (Bool × Bytes) → Bool × Bytes
  | none => (frame.flags.opcode = wsOpText, frame.payload)
  | some (text, data) => (text, data ++ frame.payload)

/-- The message that is unfinished behind the frame. -/
def pendingAfter (frame : WsFrame) (pending : Option (Bool × Bytes)) :
    Option (Bool × Bytes) :=
  if frame.isControl then pending
  else if frame.flags.fin then none
  else some (frame.extend pending)

/-- What the frame should lead to: a whole message, or the answer to a PING. -/
def due (frame : WsFrame) (pending : Option (Bool × Bytes)) : List WsNote :=
  if frame.isControl then
    if frame.flags.opcode = wsOpPing then
      [.sent ⟨wsOpPong, true, false⟩
        (websocketBuildFrame ⟨wsOpPong, true, false⟩ frame.payload)]
    else []
  else if frame.flags.fin then
    [.delivered (frame.extend pending).1 (frame.extend pending).2]
  else []

end WsFrame

/-- A message for the web logics, or a PONG. -/
def WsNote.isAnswer : WsNote → Bool
  | .delivered _ _ => true
  | .sent flags _ => flags.opcode = wsOpPong
  | _ => false

/-- The parser and the messages and PONGs that came of the frames so far; the
unfinished message and what was due. -/
structure WsRun where
  parser : WsParser
  answers : List WsNote
  pending : Option (Bool × Bytes)
  due : List WsNote

namespace WsRun

def init : WsRun where
  parser := .init
  answers := []
  pending := none
  due := []

def step (s : WsRun) (frame : WsFrame) : Option WsRun :=
  if frame.mayFollow s.pending then
    let (parser, notes) := s.parser.handleAll frame.reports
    some
      { parser := parser
        answers := s.answers ++ notes.filter (·.isAnswer)
        pending := frame.pendingAfter s.pending
        due := s.due ++ frame.due s.pending }
  else none

end WsRun

namespace WsParser

structure Holds (p : WsParser) (pending : Option (Bool × Bytes)) : Prop where
  isText : p.isText = (pending.map (·.1)).getD false
  isBinary : p.isBinary = (pending.map (!·.1)).getD false
  payloads : p.payloads = (pending.map (·.2)).getD []

theorem websocketDecode_append (mask : Bytes) (maskOffset : ℕ) (a b : Bytes) :
    websocketDecode mask maskOffset (a ++ b) =
      websocketDecode mask maskOffset a ++
        websocketDecode mask ((a.length + maskOffset) % 4) b := by
  rw [websocketDecode, List.mapIdx_append]
  congr 1
  refine List.mapIdx_eq_mapIdx_iff.mpr fun i _ => ?_
  have hplace : (i + a.length + maskOffset) % 4 =
      (i + (a.length + maskOffset) % 4) % 4 := by omega
  rw [hplace]

/-- A body that is unmasked in two pieces, with the offset that the first leaves. -/
theorem unmasked_append (flags : WsFlags) (mask : Bytes) (maskOffset : ℕ)
    (a b : Bytes) :
    unmasked flags mask maskOffset (a ++ b) =
      unmasked flags mask maskOffset a ++
        unmasked flags mask
          (if flags.hasMask then (a.length + maskOffset) % 4 else maskOffset) b := by
  unfold unmasked
  split_ifs
  · exact websocketDecode_append mask maskOffset a b
  · rfl

theorem unmasked_nil (flags : WsFlags) (mask : Bytes) (maskOffset : ℕ) :
    unmasked flags mask maskOffset [] = [] := by
  unfold unmasked
  split_ifs <;> rfl

theorem writeBytes_append (received left data : Bytes) :
    writeBytes (received ++ left) received.length data =
      received ++ data ++ left.drop data.length := by
  simp [writeBytes]

/-- The pieces of a body fill `body_`, unmasked; nothing is handed over yet. -/
theorem handleAll_bodyReports {p : WsParser} (flags : WsFlags) (mask : Bytes)
    {received left : Bytes} {pieces : List Bytes} (hbody : p.body = received ++ left)
    (hlength : pieces.flatten.length = left.length) :
    (∃ maskOffset,
      (p.handleAll (WsFrame.bodyReports flags mask received.length pieces)).1 =
        { p with
          body := received ++ unmasked flags mask p.maskOffset pieces.flatten
          maskOffset := maskOffset }) ∧
      (p.handleAll (WsFrame.bodyReports flags mask received.length
        pieces)).2.filter (·.isAnswer) = [] := by
  induction pieces generalizing p received left with
  | nil =>
      have hnil : left = [] := List.length_eq_zero_iff.mp hlength.symm
      refine ⟨⟨p.maskOffset, ?_⟩, rfl⟩
      rw [List.flatten_nil, unmasked_nil, ← hnil, ← hbody]
      rfl
  | cons data rest ih =>
      rw [List.flatten_cons, List.length_append] at hlength
      set decoded := unmasked flags mask p.maskOffset data with hdecoded
      have hfilled : (p.onFrameBody flags mask received.length data).1 =
          { p with
            body := received ++ decoded ++ left.drop data.length
            maskOffset :=
              if flags.hasMask then (data.length + p.maskOffset) % 4
              else p.maskOffset } := by
        simp [onFrameBody_eq, hbody, writeBytes_append, hdecoded]
      have hoffset : received.length + data.length = (received ++ decoded).length := by
        simp [hdecoded]
      have hbody' : (p.onFrameBody flags mask received.length data).1.body =
          (received ++ decoded) ++ left.drop data.length := by rw [hfilled]
      have hlength' : rest.flatten.length = (left.drop data.length).length := by
        rw [List.length_drop]
        omega
      obtain ⟨⟨maskOffset, hrest⟩, hquiet⟩ := ih hbody' hlength'
      rw [hfilled] at hrest hquiet
      rw [← hoffset] at hrest hquiet
      refine ⟨⟨maskOffset, ?_⟩, ?_⟩
      · rw [List.flatten_cons, unmasked_append, ← List.append_assoc]
        simp only [WsFrame.bodyReports, handleAll, handle, hfilled, Prod.map_fst, id]
        exact hrest
      · simp only [WsFrame.bodyReports, handleAll, handle, hfilled, Prod.map_snd,
          List.filter_append, hquiet, List.append_nil]
        simp [onFrameBody_eq, WsNote.isAnswer]

theorem payload_eq (frame : WsFrame) :
    frame.payload = unmasked frame.flags frame.mask 0 frame.pieces.flatten := rfl

theorem handleAll_reports (p : WsParser) (frame : WsFrame) :
    ∃ maskOffset,
      let ended : WsParser :=
        { maskOffset := maskOffset
          opcode := frame.flags.opcode
          isText := p.isText || frame.flags.opcode = wsOpText
          isBinary := p.isBinary || frame.flags.opcode = wsOpBinary
          fin := frame.flags.fin
          body := frame.payload
          payloads := p.payloads }
      (p.handleAll frame.reports).1 = ended.onFrameEnd.1 ∧
        (p.handleAll frame.reports).2.filter (·.isAnswer) =
          ended.onFrameEnd.2.filter (·.isAnswer) := by
  set p₁ := ({ p with maskOffset := 0 }.onFrameHeader frame.flags
    frame.pieces.flatten.length).1 with hp₁
  have hempty : p₁.body = [] ++ p₁.body := rfl
  have hlength : frame.pieces.flatten.length = p₁.body.length := by
    simp [hp₁, onFrameHeader]
  obtain ⟨⟨maskOffset, hbody⟩, hquiet⟩ :=
    handleAll_bodyReports frame.flags frame.mask hempty hlength
  refine ⟨maskOffset, ?_⟩
  have hreports : frame.reports =
      [WsReport.frameHeader frame.flags frame.mask frame.pieces.flatten.length] ++
        (WsFrame.bodyReports frame.flags frame.mask 0 frame.pieces ++ [.frameEnd]) := rfl
  rw [hreports, handleAll_append, handleAll_append]
  have hheader : p.handleAll
      [.frameHeader frame.flags frame.mask frame.pieces.flatten.length] =
        (p₁, [.resized frame.pieces.flatten.length, .recordPartMsg]) := rfl
  rw [List.length_nil, List.nil_append] at hbody
  rw [List.length_nil] at hquiet
  simp only [hheader, Prod.map_fst, Prod.map_snd, id, List.filter_append, hquiet]
  rw [hbody]
  constructor
  · rfl
  · simp [handleAll, handle, hp₁, onFrameHeader, payload_eq, WsNote.isAnswer]

theorem Holds.control {p : WsParser} (h : p.Holds none) {frame : WsFrame}
    (hfollow : frame.mayFollow none) (hcontrol : frame.isControl = true) :
    (p.handleAll frame.reports).1.Holds none ∧
      (p.handleAll frame.reports).2.filter (·.isAnswer) = frame.due none := by
  obtain ⟨maskOffset, hparser, hanswers⟩ := p.handleAll_reports frame
  obtain ⟨hisText, hisBinary, hpayloads⟩ := h
  have hfin : frame.flags.fin = true := by
    simpa [WsFrame.mayFollow, hcontrol] using hfollow
  have hopcode : frame.flags.opcode = wsOpClose ∨ frame.flags.opcode = wsOpPing ∨
      frame.flags.opcode = wsOpPong := by
    simpa [WsFrame.isControl, or_assoc] using hcontrol
  rw [hparser, hanswers]
  constructor
  · simp only [onFrameEnd, hfin, if_true]
    exact ⟨rfl, rfl, rfl⟩
  · simp only [onFrameEnd, hfin, if_true, hpayloads, hisText, hisBinary]
    rcases hopcode with hclose | hping | hpong
    · simp [hclose, msgOpcode, onWSMsg, WsFrame.due, hcontrol, WsNote.isAnswer,
        wsOpClose, wsOpText, wsOpBinary, wsOpPing, wsOpPong]
    · simp [hping, msgOpcode, onWSMsg, WsFrame.due, hcontrol, WsNote.isAnswer,
        wsOpClose, wsOpText, wsOpBinary, wsOpPing, wsOpPong]
    · simp [hpong, msgOpcode, onWSMsg, WsFrame.due, hcontrol, WsNote.isAnswer,
        wsOpClose, wsOpText, wsOpBinary, wsOpPing, wsOpPong]

/-- A fragment of a message: it is the first one, or none of its own type. -/
theorem Holds.fragment {p : WsParser} {pending : Option (Bool × Bytes)}
    (h : p.Holds pending) {frame : WsFrame} (hfollow : frame.mayFollow pending)
    (hdata : frame.isControl = false) :
    (p.handleAll frame.reports).1.Holds (frame.pendingAfter pending) ∧
      (p.handleAll frame.reports).2.filter (·.isAnswer) = frame.due pending := by
  obtain ⟨maskOffset, hparser, hanswers⟩ := p.handleAll_reports frame
  obtain ⟨hisText, hisBinary, hpayloads⟩ := h
  set text := (frame.extend pending).1 with htext
  have htype : (p.isText || frame.flags.opcode = wsOpText) = text ∧
      (p.isBinary || frame.flags.opcode = wsOpBinary) = !text := by
    rw [hisText, hisBinary, htext]
    simp only [WsFrame.mayFollow, hdata, Bool.false_eq_true, if_false] at hfollow
    cases pending with
    | none =>
        have hopcode : frame.flags.opcode = wsOpText ∨
            frame.flags.opcode = wsOpBinary := by simpa using hfollow
        rcases hopcode with hopcode | hopcode <;>
          simp [hopcode, WsFrame.extend, wsOpText, wsOpBinary]
    | some message =>
        have hopcode : frame.flags.opcode = wsOpContinue := by simpa using hfollow
        simp [hopcode, WsFrame.extend, wsOpContinue, wsOpText, wsOpBinary]
  have hdata' : p.payloads ++ frame.payload = (frame.extend pending).2 := by
    rw [hpayloads]
    cases pending <;> rfl
  rw [hparser, hanswers, htype.1, htype.2]
  cases hfin : frame.flags.fin with
  | true =>
      constructor
      · simp only [onFrameEnd, if_true, WsFrame.pendingAfter, hdata, hfin,
          Bool.false_eq_true, if_false]
        exact ⟨rfl, rfl, rfl⟩
      · have hclose : frame.flags.opcode ≠ wsOpClose := by
          intro heq
          simp [WsFrame.isControl, heq] at hdata
        simp only [onFrameEnd, if_true, if_neg hclose, List.nil_append, hdata',
          WsFrame.due, hdata, hfin, Bool.false_eq_true, if_false, ← htext]
        cases text <;>
          simp [msgOpcode, onWSMsg, WsNote.isAnswer, wsOpText, wsOpBinary]
  | false =>
      simp only [onFrameEnd, WsFrame.pendingAfter, WsFrame.due, hdata, hfin,
        Bool.false_eq_true, if_false, hdata', List.filter_nil, and_true]
      exact ⟨rfl, rfl, rfl⟩

/-- A control frame in between hands the unfinished message over. -/
theorem Holds.delivers_early {p : WsParser} {text : Bool} {data : Bytes}
    (h : p.Holds (some (text, data))) {frame : WsFrame}
    (hfollow : frame.mayFollow (some (text, data)))
    (hcontrol : frame.isControl = true) :
    (p.handleAll frame.reports).2.filter (·.isAnswer) =
      [.delivered text (data ++ frame.payload)] := by
  obtain ⟨maskOffset, hparser, hanswers⟩ := p.handleAll_reports frame
  obtain ⟨hisText, hisBinary, hpayloads⟩ := h
  have hfin : frame.flags.fin = true := by
    simpa [WsFrame.mayFollow, hcontrol] using hfollow
  have hreads : ((if frame.flags.opcode = wsOpClose then
      [WsNote.readPayloads 1 (data ++ frame.payload).length,
        .readPayloads 0 (data ++ frame.payload).length] else []).filter
          (·.isAnswer)) = [] := by
    split_ifs <;> rfl
  have hopcode : frame.flags.opcode ≠ wsOpText ∧ frame.flags.opcode ≠ wsOpBinary := by
    constructor <;>
      · intro heq
        simp [WsFrame.isControl, heq, wsOpText, wsOpBinary, wsOpClose, wsOpPing,
          wsOpPong] at hcontrol
  rw [hanswers]
  simp only [onFrameEnd, hfin, if_true, hpayloads, hisText, hisBinary, hopcode.1,
    hopcode.2, Option.map_some, Option.getD_some, List.filter_append, hreads]
  cases text <;> simp [msgOpcode, onWSMsg, WsNote.isAnswer, wsOpText, wsOpBinary]

end WsParser

namespace WsRun

/-- Every message and every PONG so far is one that was due, and all that were due
are there; the parser holds the unfinished message and nothing else. -/
structure Reassembled (s : WsRun) : Prop where
  answers : s.answers = s.due
  holds : s.parser.Holds s.pending

/-- No message is unfinished when a control frame comes. -/
def ControlApart (s : WsRun) (frame : WsFrame) : Prop :=
  frame.isControl = true → s.pending = none

theorem step_cases {s s' : WsRun} {frame : WsFrame} (hstep : step s frame = some s') :
    frame.mayFollow s.pending = true ∧
      s'.parser = (s.parser.handleAll frame.reports).1 ∧
      s'.answers = s.answers ++
        (s.parser.handleAll frame.reports).2.filter (·.isAnswer) ∧
      s'.pending = frame.pendingAfter s.pending ∧
      s'.due = s.due ++ frame.due s.pending := by
  obtain ⟨hfollow, hstep⟩ := Option.ite_none_right_eq_some.mp hstep
  have heq := Option.some.inj hstep
  subst heq
  exact ⟨hfollow, rfl, rfl, rfl, rfl⟩

/-- **Reassembly**: at every point of every sequence of frames the messages and the
answers are the right ones, exactly if control frames come between messages only. -/
theorem run_reassembled_iff (frames : List WsFrame) :
    Along step Reassembled (fun _ _ _ => True) init frames ↔
      Guarded step ControlApart init frames := by
  refine along_iff_guarded (fun s h => h) ?_ ?_ frames ⟨rfl, ⟨rfl, rfl, rfl⟩⟩
  · intro s frame s' h happart hstep
    obtain ⟨hfollow, hparser, hanswers', hpending, hdue⟩ := step_cases hstep
    have hframe : (s.parser.handleAll frame.reports).1.Holds s'.pending ∧
        (s.parser.handleAll frame.reports).2.filter (·.isAnswer) =
          frame.due s.pending := by
      rw [hpending]
      cases hcontrol : frame.isControl with
      | true =>
          have hnone := happart hcontrol
          have hholds := h.holds
          rw [hnone] at hholds hfollow
          rw [WsFrame.pendingAfter, if_pos hcontrol, hnone]
          exact hholds.control hfollow hcontrol
      | false => exact h.holds.fragment hfollow hcontrol
    refine ⟨⟨?_, ?_⟩, trivial⟩
    · rw [hanswers', hdue, h.answers, hframe.2]
    · rw [hparser]
      exact hframe.1
  · rintro s frame s' h hstep - hgood hcontrol
    obtain ⟨hfollow, -, hanswers', -, hdue⟩ := step_cases hstep
    by_contra hsome
    obtain ⟨⟨text, data⟩, hpending⟩ := Option.ne_none_iff_exists'.mp hsome
    have hholds := h.holds
    rw [hpending] at hholds hfollow
    have hanswers := hgood.answers
    rw [hanswers', hdue, hholds.delivers_early hfollow hcontrol, h.answers] at hanswers
    have hearly := List.append_cancel_left hanswers
    rw [WsFrame.due, if_pos hcontrol] at hearly
    split_ifs at hearly
    simp at hearly

def pingBetween : List WsFrame :=
  [⟨⟨wsOpText, false, false⟩, [0, 0, 0, 0], [[97]]⟩,
    ⟨⟨wsOpPing, true, false⟩, [0, 0, 0, 0], [[98]]⟩,
    ⟨⟨wsOpContinue, true, false⟩, [0, 0, 0, 0], [[99]]⟩]

/-- The first fragment is handed over as a message with the bytes of the PING, which
is not answered, and the second fragment is lost. -/
theorem not_reassembled_ping_between :
    (run step init pingBetween).map (fun t => (t.answers, t.due)) =
        some ([.delivered true [97, 98]],
          [.sent ⟨wsOpPong, true, false⟩ [0x8A, 1, 98], .delivered true [97, 99]]) ∧
      ¬Along step Reassembled (fun _ _ _ => True) init pingBetween := by
  have hrun : (run step init pingBetween).map (fun t => (t.answers, t.due)) =
      some ([.delivered true [97, 98]],
        [.sent ⟨wsOpPong, true, false⟩ [0x8A, 1, 98], .delivered true [97, 99]]) := by
    decide +kernel
  refine ⟨hrun, fun halong => ?_⟩
  obtain ⟨t, ht, hseen⟩ := Option.map_eq_some_iff.mp hrun
  have hanswers := (halong.last ht).answers
  rw [(Prod.mk.inj hseen).1, (Prod.mk.inj hseen).2] at hanswers
  simp at hanswers

end WsRun

end CommonComponent
