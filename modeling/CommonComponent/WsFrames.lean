import CommonComponent.StreamMachine
import CommonComponent.WsReassembly

/-!
# Frames on the wire

`websocket_build_frame` writes a frame, `websocket_parser_execute` takes it apart again.
The parser hands a body over in pieces that depend on the chunks; `WsScan` reads the
same bytes one by one and has the frames that are complete, with whole bodies.  The
calls of the parser for any chunks are the calls for the frames of the scan, and the
scan of built frames has these frames.
-/

namespace CommonComponent

open StreamMachine WebsocketParser

/-- `websocket_calc_frame_size`. -/
def websocketCalcFrameSize (flags : WsFlags) (dataLen : ℕ) : ℕ :=
  dataLen + 2 + (if 126 ≤ dataLen then if 0xFFFF < dataLen then 8 else 2 else 0) +
    if flags.hasMask then 4 else 0

/-- A frame to be built: `mask` is read where the flags have a mask. -/
structure WsSent where
  flags : WsFlags
  mask : Bytes
  data : Bytes
deriving DecidableEq

namespace WsSent

/-- The flags fit their bits, the mask is a `char[4]`, and the length fits 64 bits. -/
structure Ok (sent : WsSent) : Prop where
  opcode : sent.flags.opcode < 16
  mask : sent.mask.length = 4
  data : sent.data.length < 2 ^ 64

/-- The last `k` bytes of a length, the highest first. -/
def lengthBytes : ℕ → ℕ → Bytes
  | 0, _ => []
  | k + 1, n => UInt8.ofNat (n >>> (8 * k)) :: lengthBytes k n

/-- The mask and the body, masked where the flags have a mask. -/
def maskedBody (sent : WsSent) : Bytes :=
  if sent.flags.hasMask then sent.mask ++ websocketDecode sent.mask 0 sent.data
  else sent.data

/-- `websocket_build_frame`. -/
def build (sent : WsSent) : Bytes :=
  let n := sent.data.length
  let first := UInt8.ofNat ((if sent.flags.fin then 0x80 else 0) + sent.flags.opcode)
  let second := fun n => UInt8.ofNat ((if sent.flags.hasMask then 0x80 else 0) + n)
  if n < 126 then first :: second n :: sent.maskedBody
  else if n ≤ 0xFFFF then first :: second 126 :: (lengthBytes 2 n ++ sent.maskedBody)
  else first :: second 127 :: (lengthBytes 8 n ++ sent.maskedBody)

theorem length_lengthBytes (k n : ℕ) : (lengthBytes k n).length = k := by
  induction k with
  | zero => rfl
  | succ k ih => rw [lengthBytes, List.length_cons, ih]

/-- A frame fills the memory that is asked for it. -/
theorem length_build {sent : WsSent} (h : sent.Ok) :
    sent.build.length = websocketCalcFrameSize sent.flags sent.data.length := by
  have hbody : sent.maskedBody.length =
      sent.data.length + if sent.flags.hasMask then 4 else 0 := by
    unfold maskedBody
    split_ifs
    · simp [h.mask, websocketDecode, Nat.add_comm]
    · rfl
  unfold build websocketCalcFrameSize
  dsimp only
  split_ifs at hbody ⊢ <;>
    simp only [List.length_cons, List.length_append, length_lengthBytes, hbody] <;> omega

/-- Without a mask it is what the server builds. -/
theorem build_eq_websocketBuildFrame (flags : WsFlags) (mask data : Bytes)
    (hmask : flags.hasMask = false) :
    build ⟨flags, mask, data⟩ = websocketBuildFrame flags data := by
  simp [build, websocketBuildFrame, maskedBody, hmask, lengthBytes]

end WsSent

/-! ## Byte by byte -/

/-- The parser's struct, the body of the frame in hand, and the frames so far, each
with its body in one piece. -/
structure WsScan where
  parser : WebsocketParser
  body : Bytes
  frames : List WsFrame

namespace WsScan

def init : WsScan := ⟨.init, [], []⟩

def ended (s : WsScan) : WsScan :=
  { s with
    body := []
    frames := s.frames ++ [⟨s.parser.flags, s.parser.mask, [s.body]⟩] }

/-- Behind a byte of a header.  The frame is empty where the parser is at the start of
another one. -/
def headed (s : WsScan) (parser : WebsocketParser) : WsScan :=
  if parser.state = .start then ended { s with parser := parser }
  else { s with parser := parser }

def bodyByte (s : WsScan) (c : UInt8) : WsScan :=
  if s.parser.require ≤ 1 then
    ended { s with
      parser := { s.parser with require := 0, state := .start }
      body := s.body ++ [c] }
  else
    { s with
      parser := { s.parser with require := s.parser.require - 1 }
      body := s.body ++ [c] }

def byte (s : WsScan) (c : UInt8) : WsScan :=
  match s.parser.state with
  | .start => { s with parser := s.parser.startByte c }
  | .head => s.headed (s.parser.headByte c).1
  | .length => s.headed (s.parser.lengthByte c).1
  | .mask => s.headed (s.parser.maskByte c).1
  | .body => s.bodyByte c

def scan (s : WsScan) (data : Bytes) : WsScan := data.foldl byte s

end WsScan

namespace WsFrame

/-- The calls for a frame whose body is not complete. -/
def begun (parser : WebsocketParser) (pieces : List Bytes) : List WsReport :=
  .frameHeader parser.flags parser.mask parser.length ::
    bodyReports parser.flags parser.mask 0 pieces

theorem bodyReports_append (flags : WsFlags) (mask : Bytes) (offset : ℕ)
    (pieces : List Bytes) (data : Bytes) :
    bodyReports flags mask offset (pieces ++ [data]) =
      bodyReports flags mask offset pieces ++
        [.frameBody flags mask (offset + pieces.flatten.length) data] := by
  induction pieces generalizing offset with
  | nil => rfl
  | cons piece pieces ih =>
      rw [List.cons_append, bodyReports, bodyReports, ih, List.cons_append,
        List.flatten_cons, List.length_append, Nat.add_assoc]

/-- The same frame, in other pieces. -/
structure Same (frame frame' : WsFrame) : Prop where
  flags : frame.flags = frame'.flags
  mask : frame.mask = frame'.mask
  pieces : frame.pieces.flatten = frame'.pieces.flatten

theorem Same.payload {frame frame' : WsFrame} (h : Same frame frame') :
    frame.payload = frame'.payload := by
  rw [WsFrame.payload, WsFrame.payload, h.flags, h.mask, h.pieces]

end WsFrame

namespace WebsocketParser

/-! ## Headers -/

/-- What a byte of a header leads to: more of it, a body, or the end of an empty frame. -/
inductive Headed : WebsocketParser × List WsReport → Prop
  | more {wp : WebsocketParser} (hstate : wp.state = .length ∨ wp.state = .mask) :
      Headed (wp, [])
  | body {wp : WebsocketParser} (hstate : wp.state = .body) (hoffset : wp.offset = 0) :
      Headed (wp, [.frameHeader wp.flags wp.mask wp.length])
  | empty {wp : WebsocketParser} (hstate : wp.state = .start) :
      Headed (wp, [.frameHeader wp.flags wp.mask 0, .frameEnd])

theorem headerDone_headed {wp : WebsocketParser} (hoffset : wp.offset = 0) :
    Headed wp.headerDone := by
  unfold headerDone
  split_ifs with hlength
  · exact .body rfl hoffset
  · have hzero : wp.length = 0 := not_not.mp hlength
    rw [hzero]
    exact .empty rfl

theorem lengthDone_headed {wp : WebsocketParser} (hoffset : wp.offset = 0) :
    Headed wp.lengthDone := by
  unfold lengthDone
  split_ifs
  · exact .more (.inr rfl)
  · exact headerDone_headed hoffset

theorem headByte_headed {wp : WebsocketParser} (hoffset : wp.offset = 0) (c : UInt8) :
    Headed (wp.headByte c) := by
  unfold headByte
  dsimp only
  split_ifs
  · exact .more (.inl rfl)
  · exact .more (.inl rfl)
  · exact lengthDone_headed hoffset

theorem lengthByte_headed {wp : WebsocketParser} (hstate : wp.state = .length)
    (hoffset : wp.offset = 0) (c : UInt8) : Headed (wp.lengthByte c) := by
  unfold lengthByte
  dsimp only
  split_ifs
  · exact lengthDone_headed hoffset
  · exact .more (.inl hstate)

theorem maskByte_headed {wp : WebsocketParser} (hstate : wp.state = .mask)
    (hoffset : wp.offset = 0) (c : UInt8) : Headed (wp.maskByte c) := by
  unfold maskByte
  dsimp only
  split_ifs
  · exact headerDone_headed hoffset
  · exact .more (.inr hstate)

end WebsocketParser

namespace WsScan

/-! ## Bodies -/

theorem scan_append (s : WsScan) (data more : Bytes) :
    s.scan (data ++ more) = (s.scan data).scan more :=
  List.foldl_append

theorem scan_part {s : WsScan} (hstate : s.parser.state = .body) {data : Bytes}
    (hpart : data.length < s.parser.require) :
    s.scan data =
      { s with
        parser := { s.parser with require := s.parser.require - data.length }
        body := s.body ++ data } := by
  induction data generalizing s with
  | nil => simp [scan]
  | cons c rest ih =>
      rw [List.length_cons] at hpart
      have hbyte : s.byte c =
          { s with
            parser := { s.parser with require := s.parser.require - 1 }
            body := s.body ++ [c] } := by
        simp only [byte, hstate, bodyByte]
        rw [if_neg (by omega)]
      have hstate' : (s.byte c).parser.state = .body := by rw [hbyte]; exact hstate
      have hpart' : rest.length < (s.byte c).parser.require := by
        rw [hbyte]
        exact Nat.lt_sub_of_add_lt hpart
      change (s.byte c).scan rest = _
      rw [ih hstate' hpart', hbyte]
      simp only [List.append_assoc, List.singleton_append, List.length_cons, Nat.sub_sub,
        Nat.add_comm 1]

theorem scan_all {s : WsScan} (hstate : s.parser.state = .body) {data : Bytes}
    (hall : data.length = s.parser.require) (hne : data ≠ []) :
    s.scan data =
      ended { s with
        parser := { s.parser with require := 0, state := .start }
        body := s.body ++ data } := by
  have hpos := List.length_pos_iff.mpr hne
  have hfront : data.dropLast.length < s.parser.require := by
    rw [List.length_dropLast]
    omega
  conv_lhs => rw [← List.dropLast_append_getLast hne]
  rw [scan_append, scan_part hstate hfront]
  simp only [scan, List.foldl_cons, List.foldl_nil, byte, hstate, bodyByte]
  rw [if_pos (by rw [List.length_dropLast]; omega), List.append_assoc,
    List.dropLast_append_getLast hne]

/-! ## Chunks -/

/-- The parser with all its calls, and the scan. -/
structure Tracks (s : WsScan) (wp : WebsocketParser) (reports : List WsReport) : Prop where
  parser : wp = { s.parser with offset := wp.offset }
  ok : wp.Ok
  offset : wp.state ≠ .start → s.parser.offset = 0
  body : wp.state ≠ .body → s.body = []
  reported : ∃ frames pieces, List.Forall₂ WsFrame.Same s.frames frames ∧
    reports = frames.flatMap WsFrame.reports ++
      (if wp.state = .body then WsFrame.begun wp pieces else []) ∧
    (wp.state = .body → pieces.flatten = s.body ∧ wp.offset = s.body.length)

theorem Tracks.init : Tracks init .init [] where
  parser := rfl
  ok := .init
  offset := fun h => absurd rfl h
  body := fun _ => rfl
  reported := ⟨[], [], .nil, rfl, by intro h; cases h⟩

variable {s : WsScan} {wp : WebsocketParser} {reports : List WsReport}

theorem Tracks.state (h : Tracks s wp reports) : s.parser.state = wp.state := by
  rw [h.parser]

/-- In a header the two structs are the same. -/
theorem Tracks.parser_eq (h : Tracks s wp reports) (hstart : wp.state ≠ .start)
    (hbody : wp.state ≠ .body) : s.parser = wp := by
  have hoffset := h.ok.header hbody hstart
  have hparser := h.parser
  rw [hoffset, ← h.offset hstart] at hparser
  exact hparser.symm

theorem Tracks.start (h : Tracks s wp reports) (hstate : wp.state = .start) (c : UInt8) :
    Tracks (s.byte c) (wp.startByte c) reports := by
  obtain ⟨frames, pieces, hframes, hreports, -⟩ := h.reported
  have hbyte : s.byte c = { s with parser := s.parser.startByte c } := by
    simp only [byte, h.state.trans hstate]
  rw [hbyte]
  refine ⟨?_, startByte_ok wp c, fun _ => rfl, fun _ => h.body (by simp [hstate]), ?_⟩
  · rw [h.parser]
    rfl
  · refine ⟨frames, pieces, hframes, ?_, ?_⟩
    · simpa [startByte, hstate] using hreports
    · intro hbody
      cases hbody

/-- A byte of a header. -/
theorem Tracks.headed (h : Tracks s wp reports) (hbody : wp.state ≠ .body)
    {result : WebsocketParser × List WsReport} (hresult : Headed result) (hok : result.1.Ok) :
    Tracks (s.headed result.1) result.1 (reports ++ result.2) := by
  obtain ⟨frames, pieces, hframes, hreports, -⟩ := h.reported
  have hnone := h.body hbody
  rw [if_neg hbody, List.append_nil] at hreports
  cases hresult with
  | @more wp' hstate =>
      have hnot : wp'.state ≠ .start ∧ wp'.state ≠ .body := by
        obtain hstate | hstate := hstate <;> simp [hstate]
      rw [WsScan.headed, if_neg hnot.1]
      refine ⟨rfl, hok, fun _ => hok.header hnot.2 hnot.1, fun _ => hnone, frames, pieces,
        hframes, ?_, fun hbody' => absurd hbody' hnot.2⟩
      simp [hnot.2, hreports]
  | @body wp' hstate hoffset =>
      have hnot : wp'.state ≠ .start := by simp [hstate]
      rw [WsScan.headed, if_neg hnot]
      refine ⟨rfl, hok, fun _ => hoffset, fun hbody' => absurd hstate hbody', frames, [],
        hframes, ?_, fun _ => ?_⟩
      · simp [hstate, hreports, WsFrame.begun, WsFrame.bodyReports]
      · simp [hnone, hoffset]
  | @empty wp' hstate =>
      have hnot : wp'.state ≠ .body := by simp [hstate]
      rw [WsScan.headed, if_pos hstate]
      refine ⟨rfl, hok, fun hstart => absurd hstate hstart, fun _ => rfl,
        frames ++ [⟨wp'.flags, wp'.mask, []⟩], [], ?_, ?_, fun hbody' => absurd hbody' hnot⟩
      · refine List.rel_append hframes (.cons ⟨rfl, rfl, ?_⟩ .nil)
        simp [hnone]
      · simp [hnot, hreports, WsFrame.reports, WsFrame.bodyReports]

/-- A chunk that ends inside the body. -/
theorem Tracks.part (h : Tracks s wp reports) (hstate : wp.state = .body) {data : Bytes}
    (hpart : data.length < wp.require) :
    Tracks (s.scan data)
      { wp with require := wp.require - data.length, offset := wp.offset + data.length }
      (reports ++ [.frameBody wp.flags wp.mask wp.offset data]) := by
  obtain ⟨frames, pieces, hframes, hreports, hbody⟩ := h.reported
  obtain ⟨hpieces, hoffset⟩ := hbody hstate
  have hrequire : s.parser.require = wp.require := by rw [h.parser]
  have hzero := h.offset (by simp [hstate])
  obtain ⟨hpos, hlength⟩ := h.ok.body hstate
  rw [scan_part (h.state.trans hstate) (by rwa [hrequire])]
  refine ⟨?_, ⟨?_, ?_, ?_⟩, fun _ => hzero, fun hbody' => absurd hstate hbody', frames,
    pieces ++ [data], hframes, ?_, fun _ => ⟨?_, ?_⟩⟩
  · rw [h.parser]
  · intro hcase
    rw [hstate] at hcase
    obtain hcase | hcase := hcase <;> cases hcase
  · intro _
    dsimp only
    omega
  · intro hcase
    exact absurd hstate hcase
  · rw [hreports, if_pos hstate, if_pos hstate, WsFrame.begun, WsFrame.begun,
      WsFrame.bodyReports_append, hpieces, ← hoffset, Nat.zero_add, List.append_assoc,
      List.cons_append]
  · simp [hpieces]
  · simp [hoffset]

/-- The last bytes of the body. -/
theorem Tracks.complete (h : Tracks s wp reports) (hstate : wp.state = .body) {data : Bytes}
    (hall : data.length = wp.require) :
    Tracks (s.scan data) { wp with require := 0, state := .start }
      (reports ++ [.frameBody wp.flags wp.mask wp.offset data, .frameEnd]) := by
  obtain ⟨frames, pieces, hframes, hreports, hbody⟩ := h.reported
  obtain ⟨hpieces, hoffset⟩ := hbody hstate
  have hrequire : s.parser.require = wp.require := by rw [h.parser]
  obtain ⟨hpos, hlength⟩ := h.ok.body hstate
  have hne : data ≠ [] := List.length_pos_iff.mp (by omega)
  rw [scan_all (h.state.trans hstate) (by rw [hall, hrequire]) hne]
  have hparser := h.parser
  refine ⟨?_, ⟨?_, ?_, ?_⟩, fun hcase => absurd rfl hcase, fun _ => rfl,
    frames ++ [⟨wp.flags, wp.mask, pieces ++ [data]⟩], [], ?_, ?_, ?_⟩
  · rw [h.parser]
    rfl
  · rintro (hcase | hcase) <;> cases hcase
  · intro hcase
    cases hcase
  · intro _ hcase
    exact absurd rfl hcase
  · refine List.rel_append hframes (.cons ⟨?_, ?_, ?_⟩ .nil)
    · rw [h.parser]
    · rw [h.parser]
    · simp [hpieces]
  · have hwhole : (pieces ++ [data]).flatten.length = wp.length := by
      rw [List.flatten_append, List.length_append, hpieces, ← hoffset]
      simp
      omega
    rw [hreports, if_pos hstate, WsFrame.begun, List.flatMap_append]
    simp [WsFrame.reports, WsFrame.bodyReports_append, ← hwhole, hpieces, ← hoffset]
  · intro hcase
    cases hcase

theorem Tracks.executeLoop {fuel : ℕ} (done : ℕ) {data : Bytes} (h : Tracks s wp reports)
    (hfuel : data.length ≤ fuel) :
    Tracks (s.scan data) (wp.executeLoop fuel done done data).1
      (reports ++ (wp.executeLoop fuel done done data).2) := by
  induction fuel generalizing s wp reports done data with
  | zero =>
      obtain rfl : data = [] := List.length_eq_zero_iff.mp (Nat.le_zero.mp hfuel)
      simpa [WebsocketParser.executeLoop, scan] using h
  | succ fuel ih =>
      cases data with
      | nil => simpa [WebsocketParser.executeLoop, scan] using h
      | cons c rest =>
          rw [List.length_cons] at hfuel
          -- A byte of a header leads on with the rest of the chunk.
          have hheader : ∀ {result : WebsocketParser × List WsReport},
              Tracks (s.byte c) result.1 (reports ++ result.2) →
              Tracks (s.scan (c :: rest))
                ((result.1.executeLoop fuel (done + 1) (done + 1) rest).map id
                  (result.2 ++ ·)).1
                (reports ++ ((result.1.executeLoop fuel (done + 1) (done + 1) rest).map id
                  (result.2 ++ ·)).2) := by
            intro result hbyte
            have hrest : Tracks ((s.byte c).scan rest)
                (result.1.executeLoop fuel (done + 1) (done + 1) rest).1
                (reports ++ result.2 ++
                  (result.1.executeLoop fuel (done + 1) (done + 1) rest).2) :=
              ih (done + 1) hbyte (Nat.le_of_succ_le_succ hfuel)
            rw [List.append_assoc] at hrest
            exact hrest
          cases hstate : wp.state with
          | start =>
              simp only [WebsocketParser.executeLoop, hstate]
              exact ih (done + 1) (h.start hstate c) (Nat.le_of_succ_le_succ hfuel)
          | head =>
              have hoffset := h.ok.header (by simp [hstate]) (by simp [hstate])
              have hparser := h.parser_eq (by simp [hstate]) (by simp [hstate])
              simp only [WebsocketParser.executeLoop, hstate]
              refine hheader ?_
              have hnext := h.headed (by simp [hstate]) (headByte_headed hoffset c)
                (headByte_reports hoffset c).1
              simpa only [byte, h.state, hstate, hparser] using hnext
          | length =>
              have hoffset := h.ok.header (by simp [hstate]) (by simp [hstate])
              have hparser := h.parser_eq (by simp [hstate]) (by simp [hstate])
              simp only [WebsocketParser.executeLoop, hstate]
              refine hheader ?_
              have hnext := h.headed (by simp [hstate]) (lengthByte_headed hstate hoffset c)
                (lengthByte_reports hoffset hstate c).1
              simpa only [byte, h.state, hstate, hparser] using hnext
          | mask =>
              have hoffset := h.ok.header (by simp [hstate]) (by simp [hstate])
              have hparser := h.parser_eq (by simp [hstate]) (by simp [hstate])
              simp only [WebsocketParser.executeLoop, hstate]
              refine hheader ?_
              have hnext := h.headed (by simp [hstate]) (maskByte_headed hstate hoffset c)
                (maskByte_reports hoffset hstate c).1
              simpa only [byte, h.state, hstate, hparser] using hnext
          | body =>
              obtain ⟨hpos, -⟩ := h.ok.body hstate
              simp only [WebsocketParser.executeLoop, hstate, if_neg hpos.ne']
              split_ifs with hle
              · have htake : ((c :: rest).take wp.require).length = wp.require :=
                  List.length_take_of_le hle
                have hdone := h.complete hstate htake
                have hleft : ((c :: rest).drop wp.require).length ≤ fuel := by
                  rw [List.length_drop, List.length_cons]
                  omega
                have hrest := ih (done + wp.require) hdone hleft
                rw [← scan_append, List.take_append_drop, List.append_assoc] at hrest
                exact hrest
              · have hpart := h.part hstate (not_le.mp hle)
                simpa only [Nat.add_sub_cancel_left, hstate] using hpart

/-- **The calls for any chunks** are the calls for the frames of the scan. -/
theorem Tracks.reportsOf (h : Tracks s wp reports) (chunks : List Bytes) :
    ∃ wp', Tracks (s.scan chunks.flatten) wp' (reports ++ WsParser.reportsOf wp chunks) := by
  induction chunks generalizing s wp reports with
  | nil => exact ⟨wp, by simpa [WsParser.reportsOf, scan] using h⟩
  | cons chunk chunks ih =>
      have hchunk : Tracks (s.scan chunk) (wp.execute chunk).1
          (reports ++ (wp.execute chunk).2) := h.executeLoop 0 le_rfl
      obtain ⟨wp', hrest⟩ := ih hchunk
      refine ⟨wp', ?_⟩
      rwa [← scan_append, List.append_assoc] at hrest

end WsScan
end CommonComponent
