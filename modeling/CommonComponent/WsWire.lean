import CommonComponent.WsFrames
import Mathlib.Data.List.GetD

/-!
# Frames across chunks

The scan reads a built frame from its first byte to its last, and so does the parser,
wherever the chunks end: the calls are those for frames with the flags and the bodies
that were sent.
-/

namespace CommonComponent

open StreamMachine WebsocketParser

namespace WsSent

/-- The frame with its body in one piece. -/
def frame (sent : WsSent) : WsFrame :=
  ⟨sent.flags, sent.mask,
    [if sent.flags.hasMask then websocketDecode sent.mask 0 sent.data else sent.data]⟩

theorem websocketDecode_twice (mask data : Bytes) :
    websocketDecode mask 0 (websocketDecode mask 0 data) = data := by
  refine List.ext_getElem (by simp [websocketDecode]) fun i hi hi' => ?_
  simp only [websocketDecode, List.getElem_mapIdx, UInt8.xor_assoc, UInt8.xor_self,
    UInt8.xor_zero]

theorem payload_frame (sent : WsSent) : sent.frame.payload = sent.data := by
  unfold WsFrame.payload frame
  dsimp only
  split_ifs
  · rw [List.flatten_singleton]
    exact websocketDecode_twice sent.mask sent.data
  · exact List.flatten_singleton

/-- The frame that was read is the one that was sent. -/
structure Carried (sent : WsSent) (frame : WsFrame) : Prop where
  flags : frame.flags = sent.flags
  payload : frame.payload = sent.data

theorem carried_same {sents : List WsSent} {frames frames' : List WsFrame}
    (h : List.Forall₂ Carried sents frames) (hsame : List.Forall₂ WsFrame.Same frames frames') :
    List.Forall₂ Carried sents frames' := by
  induction h generalizing frames' with
  | nil =>
      cases hsame
      exact .nil
  | cons hhead _ ih =>
      cases hsame with
      | cons hframe hrest =>
          apply List.Forall₂.cons _ (ih hrest)
          exact ⟨hframe.flags.symm.trans hhead.flags, hframe.payload.symm.trans hhead.payload⟩

end WsSent

namespace WsScan

def machine (s : WsScan) (c : UInt8) : Option WsScan := some (s.byte c)

theorem foldlM_machine (s : WsScan) (data : Bytes) :
    data.foldlM machine s = some (s.scan data) := by
  induction data generalizing s with
  | nil => rfl
  | cons c rest ih => exact ih (s.byte c)

variable {sents : List WsSent} {sent : WsSent}

/-- Between two frames. -/
structure AtStart (sents : List WsSent) (s : WsScan) : Prop where
  state : s.parser.state = .start
  mask : s.parser.mask.length = 4
  body : s.body = []
  frames : List.Forall₂ WsSent.Carried sents s.frames

/-- In the header of a frame, at the given place of it. -/
structure InHeader (sents : List WsSent) (flags : WsFlags) (state : WsState)
    (require length : ℕ) (s : WsScan) : Prop where
  state : s.parser.state = state
  flags : s.parser.flags = flags
  require : s.parser.require = require
  length : s.parser.length = length
  mask : s.parser.mask.length = 4
  body : s.body = []
  frames : List.Forall₂ WsSent.Carried sents s.frames

/-- Behind the header of a frame with some length. -/
def BehindHeader (sents : List WsSent) (sent : WsSent) (length : ℕ) (s : WsScan) : Prop :=
  if length = 0 then
    s.parser.state = .start ∧ s.parser.mask.length = 4 ∧ s.body = [] ∧
      ∃ frames mask, s.frames = frames ++ [⟨sent.flags, mask, [[]]⟩] ∧
        List.Forall₂ WsSent.Carried sents frames
  else
    InHeader sents sent.flags .body length length s ∧
      (sent.flags.hasMask = true → s.parser.mask = sent.mask)

/-- Behind the length of a frame. -/
def BehindLength (sents : List WsSent) (sent : WsSent) (length : ℕ) (s : WsScan) : Prop :=
  if sent.flags.hasMask then InHeader sents sent.flags .mask 4 length s
  else BehindHeader sents sent length s

/-! ## Header bytes -/

theorem first_byte (fin : Bool) {opcode : ℕ} (hopcode : opcode < 16) :
    ((UInt8.ofNat ((if fin then 0x80 else 0) + opcode) &&& 0xF).toNat = opcode) ∧
      decide (UInt8.ofNat ((if fin then 0x80 else 0) + opcode) &&& 0x80 ≠ 0) = fin := by
  revert fin
  revert opcode
  decide

theorem second_byte (hasMask : Bool) {n : ℕ} (hn : n < 128) :
    ((UInt8.ofNat ((if hasMask then 0x80 else 0) + n) &&& 0x7F).toNat = n) ∧
      decide (UInt8.ofNat ((if hasMask then 0x80 else 0) + n) &&& 0x80 ≠ 0) = hasMask := by
  revert hasMask
  revert n
  decide +kernel

theorem headed_headerDone {s : WsScan} {wp : WebsocketParser} {length : ℕ}
    (hflags : wp.flags = sent.flags) (hlength : wp.length = length)
    (hmask : wp.mask.length = 4) (hsame : sent.flags.hasMask = true → wp.mask = sent.mask)
    (hbody : s.body = []) (hframes : List.Forall₂ WsSent.Carried sents s.frames) :
    BehindHeader sents sent length (s.headed wp.headerDone.1) := by
  unfold BehindHeader headerDone headed
  by_cases hzero : length = 0
  · subst hzero
    simp only [hlength, ne_eq, not_true_eq_false, if_false, if_true]
    refine ⟨rfl, hmask, rfl, s.frames, wp.mask, ?_, hframes⟩
    simp [ended, hflags, hbody]
  · simp only [hlength, ne_eq, hzero, not_false_eq_true, if_true, if_false]
    exact ⟨⟨rfl, hflags, rfl, rfl, hmask, hbody, hframes⟩, hsame⟩

theorem headed_lengthDone {s : WsScan} {wp : WebsocketParser} {length : ℕ}
    (hflags : wp.flags = sent.flags) (hlength : wp.length = length)
    (hmask : wp.mask.length = 4) (hbody : s.body = [])
    (hframes : List.Forall₂ WsSent.Carried sents s.frames) :
    BehindLength sents sent length (s.headed wp.lengthDone.1) := by
  unfold BehindLength lengthDone
  rw [hflags]
  cases hhas : sent.flags.hasMask with
  | true =>
      simp only [if_true]
      exact ⟨rfl, rfl, rfl, hlength, hmask, hbody, hframes⟩
  | false =>
      simp only [Bool.false_eq_true, if_false]
      refine headed_headerDone hflags hlength hmask ?_ hbody hframes
      rw [hhas]
      intro h
      cases h

theorem reads_first (sents : List WsSent) (hok : sent.Ok) :
    Reads machine (AtStart sents)
      [UInt8.ofNat ((if sent.flags.fin then 0x80 else 0) + sent.flags.opcode)]
      (fun s => InHeader sents ⟨sent.flags.opcode, sent.flags.fin, false⟩ .head
        s.parser.require 0 s) := by
  refine .single fun s hs => ⟨_, rfl, ?_⟩
  obtain ⟨hlow, hhigh⟩ := first_byte sent.flags.fin hok.opcode
  simp only [byte, hs.state]
  refine ⟨rfl, ?_, rfl, rfl, hs.mask, hs.body, hs.frames⟩
  simp only [startByte, WsFlags.mk.injEq, and_true]
  exact ⟨hlow, hhigh⟩

/-- The second byte has the length, or says how many bytes of it follow. -/
theorem headByte_short (wp : WebsocketParser) {n : ℕ} (hn : n < 126) (hasMask : Bool) :
    wp.headByte (UInt8.ofNat ((if hasMask then 0x80 else 0) + n)) =
      lengthDone { wp with flags := { wp.flags with hasMask := hasMask }, length := n } := by
  obtain ⟨hlow, hhigh⟩ := second_byte hasMask (show n < 128 by omega)
  unfold headByte
  simp only [hlow, hhigh, not_le.mpr hn, if_false]

theorem headByte_long (wp : WebsocketParser) {n : ℕ} (hn : n = 126 ∨ n = 127)
    (hasMask : Bool) :
    wp.headByte (UInt8.ofNat ((if hasMask then 0x80 else 0) + n)) =
      ({ wp with
          flags := { wp.flags with hasMask := hasMask }
          require := if n = 127 then 8 else 2
          length := 0
          state := .length }, []) := by
  obtain ⟨hlow, hhigh⟩ := second_byte hasMask (show n < 128 by omega)
  unfold headByte
  simp only [hlow, hhigh, show 126 ≤ n by omega, if_true]

theorem reads_short {n : ℕ} (hn : n < 126) :
    Reads machine
      (fun s => InHeader sents ⟨sent.flags.opcode, sent.flags.fin, false⟩ .head
        s.parser.require 0 s)
      [UInt8.ofNat ((if sent.flags.hasMask then 0x80 else 0) + n)]
      (BehindLength sents sent n) := by
  refine .single fun s hs => ⟨_, rfl, ?_⟩
  simp only [byte, hs.state, headByte_short _ hn]
  refine headed_lengthDone ?_ rfl hs.mask hs.body hs.frames
  rw [hs.flags]

theorem reads_long {n : ℕ} (hn : n = 126 ∨ n = 127) :
    Reads machine
      (fun s => InHeader sents ⟨sent.flags.opcode, sent.flags.fin, false⟩ .head
        s.parser.require 0 s)
      [UInt8.ofNat ((if sent.flags.hasMask then 0x80 else 0) + n)]
      (InHeader sents sent.flags .length (if n = 127 then 8 else 2) 0) := by
  refine .single fun s hs => ⟨_, rfl, ?_⟩
  simp only [byte, hs.state, headByte_long _ hn, headed]
  refine ⟨rfl, ?_, rfl, rfl, hs.mask, hs.body, hs.frames⟩
  simp [hs.flags]

/-- The bytes of the length. -/
theorem reads_lengthBytes (sents : List WsSent) (sent : WsSent) (k n length : ℕ) :
    Reads machine (InHeader sents sent.flags .length (k + 1) length)
      (WsSent.lengthBytes (k + 1) n)
      (BehindLength sents sent (length * 256 ^ (k + 1) + n % 256 ^ (k + 1))) := by
  have hbyte : ∀ shift, (UInt8.ofNat (n >>> (8 * shift))).toNat = n / 256 ^ shift % 256 := by
    intro shift
    rw [UInt8.toNat_ofNat', Nat.shiftRight_eq_div_pow, pow_mul]
    norm_num
  induction k generalizing length with
  | zero =>
      refine .single fun s hs => ⟨_, rfl, ?_⟩
      simp only [byte, hs.state, lengthByte, hs.require, hs.length, Nat.zero_add,
        Nat.sub_self, if_true]
      refine headed_lengthDone hs.flags ?_ hs.mask hs.body hs.frames
      simp
  | succ k ih =>
      have hsplit : length * 256 ^ (k + 1 + 1) + n % 256 ^ (k + 1 + 1) =
          (length * 256 + n / 256 ^ (k + 1) % 256) * 256 ^ (k + 1) + n % 256 ^ (k + 1) := by
        rw [Nat.pow_succ 256 (k + 1), Nat.mod_mul]
        ring
      rw [hsplit]
      refine .cons ?_ (ih _)
      intro s hs
      refine ⟨_, rfl, ?_⟩
      simp only [byte, hs.state, lengthByte, hs.require, hs.length, Nat.add_sub_cancel,
        Nat.succ_ne_zero, if_false, headed]
      refine ⟨rfl, hs.flags, rfl, ?_, hs.mask, hs.body, hs.frames⟩
      simp [hbyte]

/-! ## Masks and bodies -/

/-- In the mask, with the first `j` bytes of it. -/
structure InMask (sents : List WsSent) (sent : WsSent) (length j : ℕ) (s : WsScan) :
    Prop where
  header : InHeader sents sent.flags .mask (4 - j) length s
  read : s.parser.mask.take j = sent.mask.take j

theorem take_set_succ (mask : Bytes) {j : ℕ} (hj : j < mask.length) (c : UInt8) :
    (mask.set j c).take (j + 1) = mask.take j ++ [c] := by
  rw [List.take_add_one, List.take_set, List.set_eq_of_length_le (by simp)]
  simp [hj]

theorem reads_mask (sents : List WsSent) (hok : sent.Ok) (length : ℕ) {k j : ℕ} (hj : j + k = 3) :
    Reads machine (InMask sents sent length j) (sent.mask.drop j)
      (BehindHeader sents sent length) := by
  have hsent := hok.mask
  induction k generalizing j with
  | zero =>
      obtain rfl : j = 3 := hj
      obtain ⟨c, hc⟩ : ∃ c, sent.mask.drop 3 = [c] := by
        rw [← List.length_eq_one_iff, List.length_drop, hsent]
      rw [hc]
      refine .single fun s hs => ⟨_, rfl, ?_⟩
      have hheader := hs.header
      simp only [byte, hheader.state, maskByte, hheader.require, Nat.sub_self, if_true]
      refine headed_headerDone hheader.flags hheader.length ?_ ?_ hheader.body
        hheader.frames
      · simpa using hheader.mask
      · intro _
        have hset := take_set_succ s.parser.mask (j := 3)
          (by rw [hheader.mask]; decide) c
        rw [hs.read, ← hc, List.take_append_drop, List.take_of_length_le] at hset
        · exact hset
        · rw [List.length_set, hheader.mask]
  | succ k ih =>
      have hlt : j < sent.mask.length := by omega
      rw [List.drop_eq_getElem_cons hlt]
      refine .cons ?_ (ih (by omega))
      intro s hs
      refine ⟨_, rfl, ?_⟩
      have hheader := hs.header
      have hmore : 4 - j - 1 ≠ 0 := by omega
      have hplace : 4 - (4 - j) = j := by omega
      have hset := take_set_succ s.parser.mask (j := j)
        (by rw [hheader.mask]; omega) sent.mask[j]
      rw [hs.read, List.take_append_getElem hlt] at hset
      simp only [byte, hheader.state, maskByte, hheader.require, hmore, if_false, headed,
        hplace]
      refine ⟨⟨rfl, hheader.flags, ?_, hheader.length, ?_, hheader.body, hheader.frames⟩,
        hset⟩
      · change 4 - j - 1 = 4 - (j + 1)
        omega
      · simpa using hheader.mask

theorem reads_body (sents : List WsSent) (sent : WsSent) :
    Reads machine (BehindHeader sents sent sent.data.length)
      (if sent.flags.hasMask then websocketDecode sent.mask 0 sent.data else sent.data)
      (AtStart (sents ++ [sent])) := by
  set body := if sent.flags.hasMask then websocketDecode sent.mask 0 sent.data
    else sent.data with hbodyDef
  have hlength : body.length = sent.data.length := by
    rw [hbodyDef]
    split_ifs
    · simp [websocketDecode]
    · rfl
  intro s hs
  refine ⟨s.scan body, foldlM_machine s body, ?_⟩
  unfold BehindHeader at hs
  split_ifs at hs with hzero
  · obtain ⟨hstate, hmask, hnone, frames, mask, hframes, hcarried⟩ := hs
    have hdata : sent.data = [] := List.length_eq_zero_iff.mp hzero
    obtain hempty : body = [] := List.length_eq_zero_iff.mp (hlength.trans hzero)
    rw [hempty]
    refine ⟨hstate, hmask, hnone, ?_⟩
    change List.Forall₂ _ _ s.frames
    rw [hframes]
    refine List.rel_append hcarried (.cons ⟨rfl, ?_⟩ .nil)
    rw [hdata]
    simp [WsFrame.payload]
  · obtain ⟨hheader, hsame⟩ := hs
    have hne : body ≠ [] := by
      intro hempty
      rw [hempty] at hlength
      exact hzero hlength.symm
    rw [scan_all hheader.state (hlength.trans hheader.require.symm) hne]
    refine ⟨rfl, hheader.mask, rfl, ?_⟩
    refine List.rel_append hheader.frames (.cons ⟨hheader.flags, ?_⟩ .nil)
    rw [← WsSent.payload_frame sent]
    unfold WsFrame.payload WsSent.frame
    dsimp only
    rw [hheader.flags, hheader.body, List.nil_append, ← hbodyDef]
    split_ifs with hhas
    · rw [hsame hhas]
    · rfl

theorem reads_maskedBody (sents : List WsSent) (hok : sent.Ok) :
    Reads machine (BehindLength sents sent sent.data.length) sent.maskedBody
      (AtStart (sents ++ [sent])) := by
  have hbody := reads_body sents sent
  unfold BehindLength WsSent.maskedBody
  cases hhas : sent.flags.hasMask with
  | true =>
      simp only [hhas, if_true] at hbody ⊢
      refine Reads.append ?_ hbody
      have hmask := reads_mask sents hok sent.data.length (k := 3) (j := 0) rfl
      intro s hs
      exact hmask s ⟨hs, rfl⟩
  | false =>
      simpa only [hhas, Bool.false_eq_true, if_false] using hbody

/-- A built frame is read to its end. -/
theorem reads_build (sents : List WsSent) (hok : sent.Ok) :
    Reads machine (AtStart sents) sent.build (AtStart (sents ++ [sent])) := by
  have hrest := reads_maskedBody sents hok
  have hfirst := reads_first sents hok
  unfold WsSent.build
  dsimp only
  by_cases hshort : sent.data.length < 126
  · rw [if_pos hshort]
    exact hfirst.append ((reads_short hshort).append hrest)
  rw [if_neg hshort]
  by_cases hmiddle : sent.data.length ≤ 0xFFFF
  · rw [if_pos hmiddle]
    refine hfirst.append ((reads_long (.inl rfl)).append ?_)
    have hlength := reads_lengthBytes sents sent 1 sent.data.length 0
    rw [Nat.zero_mul, Nat.zero_add, Nat.mod_eq_of_lt (by norm_num; omega)] at hlength
    exact hlength.append hrest
  · rw [if_neg hmiddle]
    refine hfirst.append ((reads_long (.inr rfl)).append ?_)
    have hlength := reads_lengthBytes sents sent 7 sent.data.length 0
    rw [Nat.zero_mul, Nat.zero_add, Nat.mod_eq_of_lt (by simpa using hok.data)] at hlength
    exact hlength.append hrest

theorem reads_flatMap_build (sents : List WsSent) {more : List WsSent}
    (hok : ∀ sent ∈ more, sent.Ok) :
    Reads machine (AtStart sents) (more.flatMap WsSent.build)
      (AtStart (sents ++ more)) := by
  induction more generalizing sents with
  | nil =>
      rw [List.append_nil]
      exact .nil fun s hs => hs
  | cons sent rest ih =>
      have hhead := reads_build sents (hok sent List.mem_cons_self)
      have hrest : ∀ sent' ∈ rest, sent'.Ok :=
        fun sent' hmem => hok sent' (List.mem_cons_of_mem sent hmem)
      have htail := ih (sents ++ [sent]) hrest
      rw [List.append_assoc] at htail
      exact hhead.append htail

theorem atStart_init : AtStart [] init := ⟨rfl, rfl, rfl, .nil⟩

end WsScan

namespace WsParser

open WsScan

/-- **Built frames are read back**, wherever the chunks end: the calls are those for
frames with the same flags and bodies. -/
theorem reportsOf_build {sents : List WsSent} (hok : ∀ sent ∈ sents, sent.Ok)
    {chunks : List Bytes} (hchunks : chunks.flatten = sents.flatMap WsSent.build) :
    ∃ frames, reportsOf .init chunks = frames.flatMap WsFrame.reports ∧
      List.Forall₂ WsSent.Carried sents frames := by
  obtain ⟨s, hscan, hstart⟩ := reads_flatMap_build [] hok WsScan.init atStart_init
  rw [← hchunks, foldlM_machine] at hscan
  obtain rfl := Option.some.inj hscan
  obtain ⟨wp, htracks⟩ := Tracks.init.reportsOf chunks
  obtain ⟨frames, pieces, hsame, hreports, -⟩ := htracks.reported
  have hbody : wp.state ≠ .body := by
    rw [← htracks.state, hstart.state]
    intro h
    cases h
  rw [if_neg hbody, List.append_nil, List.nil_append] at hreports
  refine ⟨frames, hreports, ?_⟩
  have hcarried := hstart.frames
  rw [List.nil_append] at hcarried
  exact WsSent.carried_same hcarried hsame

/-- A masked TEXT frame and a PONG, cut in the mask and in the last body. -/
theorem reportsOf_build_cut :
    ∃ frames,
      reportsOf .init [[0x81, 0x82, 1, 2], [3, 4, 105, 107, 0x8A, 2, 7], [8]] =
          frames.flatMap WsFrame.reports ∧
        List.Forall₂ WsSent.Carried
          [⟨⟨wsOpText, true, true⟩, [1, 2, 3, 4], [104, 105]⟩,
            ⟨⟨wsOpPong, true, false⟩, [0, 0, 0, 0], [7, 8]⟩] frames := by
  apply reportsOf_build
  · intro sent hmem
    simp only [List.mem_cons, List.not_mem_nil, or_false] at hmem
    obtain rfl | rfl := hmem
    · exact ⟨by decide, rfl, by decide⟩
    · exact ⟨by decide, rfl, by decide⟩
  · decide

end WsParser
end CommonComponent
