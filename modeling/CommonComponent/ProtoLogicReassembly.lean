import CommonComponent.LabelledRun
import CommonComponent.ProtoLogic

/-!
# Reassembly on the server

Two results about the receive loop of the server.  The first is about one call:
whether it takes every complete frame off the buffer.  The second is about all
calls of a connection: whether what the peer and the handlers are told depends
on the chunks the stream came in.

Both fail for the reasons the loop shows.  A frame whose checksum is wrong is
answered and stays at the head of the buffer, and the length field is read
before four bytes of it have arrived.
-/

namespace CommonComponent

open FramedStream

namespace ProtoLogic

variable {σ : Type*} (p : ProtoLogic σ)

/-! ## One call -/

def delivered (events : List ConnEvent) : List (MsgHead × Bytes) :=
  events.filterMap fun
    | .onClientMsg msgHead msgBody => some (msgHead, msgBody)
    | _ => none

def validMsgs (codec : MsgCodec) (totalMsgs : List Bytes) :
    List (MsgHead × Bytes) :=
  totalMsgs.filterMap fun totalMsg => (codec.decodeMsg totalMsg).toOption

/-- What a call that leaves the connection open with `rest` in its buffer should
have done with the bytes of `buffer`. -/
structure Consumed (s : ConnState σ) (buffer : Bytes) (s' : ConnState σ)
    (rest : Bytes) : Prop where
  noWholeFrame : ¬p.msgCodec.framing.StartsWhole rest
  consumedOnce : rest = (p.msgCodec.framing.drain buffer).2
  deliveredInOrder : delivered s'.events =
    delivered s.events ++
      validMsgs p.msgCodec (p.msgCodec.framing.drain buffer).1
  covered : rest ≠ [] → s'.partMsgMgr.recordExist p.conn

/-- The call returns, and if the connection is still open every complete frame
has been consumed. -/
def ConsumesFrames (env : RecvEnv) (s : ConnState σ) (chunk : Bytes) : Prop :=
  ∃ s', p.onRecvClientData env s chunk = some s' ∧
    ∀ d rest, s.data = some d → s'.data = some rest →
      p.Consumed s (d ++ chunk) s' rest

/-- Among the frames of a buffer one with a wrong checksum has its turn before a
handler closes the connection. -/
def MeetsMismatch : σ → List Bytes → Prop
  | _, [] => False
  | logic, totalMsg :: later =>
      match p.msgCodec.decodeMsg totalMsg with
      | .error _ => True
      | .ok (msgHead, msgBody) =>
          (p.handle logic msgHead msgBody).2 = false ∧
            MeetsMismatch (p.handle logic msgHead msgBody).1 later

variable {p}

theorem delivered_append (events later : List ConnEvent) :
    delivered (events ++ later) = delivered events ++ delivered later :=
  List.filterMap_append

theorem delivered_repliesTo (logic : σ) (msgHead : MsgHead) (msgBody : Bytes) :
    delivered (p.repliesTo logic msgHead msgBody) = [] := by
  unfold repliesTo
  by_cases hbeat : msgHead.msgId = msgIdHeartbeatReq
  · rw [if_pos hbeat]
    rfl
  · simp only [if_neg hbeat]
    cases p.dispatchMsg logic msgHead msgBody with
    | some handled => rfl
    | none =>
        simp only
        split_ifs <;> rfl

theorem delivered_served (events : List ConnEvent) (logic : σ)
    (msgHead : MsgHead) (msgBody : Bytes) :
    delivered (events ++ .onClientMsg msgHead msgBody ::
        p.repliesTo logic msgHead msgBody) =
      delivered events ++ [(msgHead, msgBody)] := by
  have hcons : delivered (.onClientMsg msgHead msgBody ::
        p.repliesTo logic msgHead msgBody) =
      (msgHead, msgBody) :: delivered (p.repliesTo logic msgHead msgBody) := rfl
  rw [delivered_append, hcons, delivered_repliesTo]

theorem Consumed.nil (s : ConnState σ) : p.Consumed s [] s [] where
  noWholeFrame := p.msgCodec.framing.not_startsWhole_nil
  consumedOnce := by rw [p.msgCodec.framing.drain_nil]
  deliveredInOrder := by rw [p.msgCodec.framing.drain_nil]; simp [validMsgs]
  covered := fun h => (h rfl).elim

theorem Consumed.afterMsg {s served s' : ConnState σ} {d rest left : Bytes}
    {totalMsg : Bytes} {msgHead : MsgHead} {msgBody : Bytes}
    (hhead : p.msgCodec.headOf d = .whole totalMsg left)
    (hdecode : p.msgCodec.decodeMsg totalMsg = .ok (msgHead, msgBody))
    (hevents : served.events = s.events ++ .onClientMsg msgHead msgBody ::
      p.repliesTo s.logic msgHead msgBody)
    (h : p.Consumed served left s' rest) : p.Consumed s d s' rest := by
  have hdrain := p.msgCodec.framing.drain_whole hhead
  have hmsgs : validMsgs p.msgCodec (p.msgCodec.framing.drain d).1 =
      (msgHead, msgBody) ::
        validMsgs p.msgCodec (p.msgCodec.framing.drain left).1 := by
    rw [hdrain]
    simp [validMsgs, hdecode, Except.toOption]
  refine ⟨h.noWholeFrame, ?_, ?_, h.covered⟩
  · rw [hdrain]
    exact h.consumedOnce
  · rw [h.deliveredInOrder, hevents, delivered_served, hmsgs]
    simp

theorem recvLoop_of_mismatch (env : RecvEnv) (pass : ℕ) {d : Bytes} {fuel : ℕ}
    {s : ConnState σ} (hopen : s.data = some d) (hfuel : d.length < fuel)
    (hmeets : p.MeetsMismatch s.logic (p.msgCodec.framing.drain d).1) :
    ∃ s' rest, p.recvLoop env fuel pass s = some s' ∧ s'.data = some rest ∧
      p.msgCodec.framing.StartsWhole rest := by
  induction d using p.msgCodec.framing.drain_induction
    generalizing fuel pass s with
  | stop d hstop =>
      rw [p.msgCodec.framing.drain_of_not_startsWhole hstop] at hmeets
      exact hmeets.elim
  | whole d totalMsg rest hhead ih =>
      rw [p.msgCodec.framing.drain_whole hhead] at hmeets
      have hshort : rest.length < d.length := MsgCodec.headOf_whole_shorter hhead
      obtain ⟨fuel, rfl⟩ : ∃ n, fuel = n + 1 := ⟨fuel - 1, by omega⟩
      unfold recvLoop
      simp only [hopen]
      simp only [MeetsMismatch] at hmeets
      cases hdecode : p.msgCodec.decodeMsg totalMsg with
      | error errMsgId =>
          rw [recvPass_of_mismatch hopen hhead hdecode]
          exact ⟨_, d, rfl, hopen, totalMsg, rest, hhead⟩
      | ok msg =>
          obtain ⟨msgHead, msgBody⟩ := msg
          simp only [hdecode] at hmeets
          obtain ⟨hstay, hlater⟩ := hmeets
          rw [recvPass_of_handled (env.behind pass) env.now hopen hhead hdecode
            hstay]
          have hnonempty : 0 < rest.length := by
            rcases rest with - | ⟨byte, rest⟩
            · rw [p.msgCodec.framing.drain_nil] at hlater
              exact hlater.elim
            · simp
          simp only [hnonempty, decide_true, if_true]
          exact ih (pass + 1) rfl (by omega) hlater

theorem recvLoop_consumed {env : RecvEnv} {d : Bytes} {fuel pass : ℕ}
    {s s' : ConnState σ} {rest : Bytes} (hopen : s.data = some d)
    (hfuel : d.length < fuel)
    (hmeets : ¬p.MeetsMismatch s.logic (p.msgCodec.framing.drain d).1)
    (hloop : p.recvLoop env fuel pass s = some s')
    (hrest : s'.data = some rest) : p.Consumed s d s' rest := by
  induction d using p.msgCodec.framing.drain_induction
    generalizing fuel pass s with
  | stop d hstop =>
      obtain ⟨fuel, rfl⟩ : ∃ n, fuel = n + 1 := ⟨fuel - 1, by omega⟩
      unfold recvLoop at hloop
      simp only [hopen] at hloop
      by_cases hrefused : p.msgCodec.headOf d = .broken ∨
          p.msgCodec.Misreads (env.behind pass) d
      · rw [recvPass_of_refused hrefused] at hloop
        simp only [Bool.false_eq_true, if_false, Option.some.injEq] at hloop
        subst hloop
        cases hrest
      · rw [not_or] at hrefused
        have hwaiting : p.msgCodec.headOf d = .waiting := by
          cases hhead : p.msgCodec.headOf d with
          | waiting => rfl
          | broken => exact (hrefused.1 hhead).elim
          | whole f r => exact (hstop ⟨f, r, hhead⟩).elim
        rw [recvPass_of_waiting hwaiting hrefused.2] at hloop
        simp only [Bool.false_eq_true, if_false, Option.some.injEq] at hloop
        subst hloop
        rw [hopen, Option.some.injEq] at hrest
        subst hrest
        have hdrain := p.msgCodec.framing.drain_of_not_startsWhole hstop
        refine ⟨hstop, by rw [hdrain], by rw [hdrain]; simp [validMsgs], ?_⟩
        intro _
        rw [RecordTimeoutMgr.recordExist_upsertRecord]
        simp
  | whole d totalMsg left hhead ih =>
      have hdrain := p.msgCodec.framing.drain_whole hhead
      have hshort : left.length < d.length := MsgCodec.headOf_whole_shorter hhead
      obtain ⟨fuel, rfl⟩ : ∃ n, fuel = n + 1 := ⟨fuel - 1, by omega⟩
      unfold recvLoop at hloop
      simp only [hopen] at hloop
      rw [hdrain] at hmeets
      simp only [MeetsMismatch] at hmeets
      cases hdecode : p.msgCodec.decodeMsg totalMsg with
      | error errMsgId => simp [hdecode] at hmeets
      | ok msg =>
          obtain ⟨msgHead, msgBody⟩ := msg
          simp only [hdecode, not_and] at hmeets
          cases hhandle : (p.handle s.logic msgHead msgBody).2 with
          | true =>
              have hdone := recvPass_of_closing (env.behind pass) env.now
                hopen hhead hdecode hhandle
              rw [hdone.2] at hloop
              simp only [Bool.false_eq_true, if_false, Option.some.injEq] at hloop
              rw [← hloop, hdone.1] at hrest
              cases hrest
          | false =>
              have hlater := hmeets hhandle
              rw [recvPass_of_handled (env.behind pass) env.now hopen hhead hdecode
                hhandle] at hloop
              by_cases hnonempty : 0 < left.length
              · simp only [hnonempty, decide_true, if_true] at hloop
                exact (ih rfl (by omega) hlater hloop).afterMsg hhead hdecode rfl
              · have hnil : left = [] := by
                  rw [List.length_pos_iff, not_not] at hnonempty
                  exact hnonempty
                subst hnil
                simp only [List.length_nil, lt_irrefl, decide_false,
                  Bool.false_eq_true, if_false, Option.some.injEq] at hloop
                subst hloop
                simp only [Option.some.injEq] at hrest
                subst hrest
                exact (Consumed.nil _).afterMsg hhead hdecode rfl

/-- **Which calls consume every complete frame.**  Exactly those in which no
frame with a wrong checksum has its turn while the connection is open. -/
theorem consumesFrames_iff (env : RecvEnv) (s : ConnState σ) (chunk : Bytes) :
    p.ConsumesFrames env s chunk ↔
      ∀ d, s.data = some d →
        ¬p.MeetsMismatch s.logic (p.msgCodec.framing.drain (d ++ chunk)).1 := by
  constructor
  · rintro ⟨s', hcall, hconsumed⟩ d hopen hmeets
    simp only [onRecvClientData, hopen] at hcall
    have hfuel : (d ++ chunk).length < d.length + chunk.length + 1 := by simp
    obtain ⟨s'', rest, hloop, hrest, hwhole⟩ :=
      recvLoop_of_mismatch env 0 (s := { s with data := some (d ++ chunk) })
        rfl hfuel hmeets
    rw [hcall, Option.some.injEq] at hloop
    subst hloop
    exact (hconsumed d rest hopen hrest).noWholeFrame hwhole
  · intro hmeets
    obtain ⟨s', hcall⟩ :=
      Option.isSome_iff_exists.mp (onRecvClientData_isSome (p := p) env s chunk)
    refine ⟨s', hcall, fun d rest hopen hrest => ?_⟩
    simp only [onRecvClientData, hopen] at hcall
    have hconsumed := recvLoop_consumed (p := p)
      (s := { s with data := some (d ++ chunk) }) rfl (by simp)
      (hmeets d hopen) hcall hrest
    exact ⟨hconsumed.noWholeFrame, hconsumed.consumedOnce,
      hconsumed.deliveredInOrder, hconsumed.covered⟩

/-! ## All calls of a connection -/

def recvStep (p : ProtoLogic σ) (s : ConnState σ) (call : Bytes × RecvEnv) :
    Option (ConnState σ) :=
  p.onRecvClientData call.2 s call.1

/-- The state of the logics and the events after some messages. -/
def serve (p : ProtoLogic σ) : σ → List (MsgHead × Bytes) → σ × List ConnEvent
  | logic, [] => (logic, [])
  | logic, (msgHead, msgBody) :: later =>
      let served := serve p (p.handle logic msgHead msgBody).1 later
      (served.1, .onClientMsg msgHead msgBody ::
        p.repliesTo logic msgHead msgBody ++ served.2)

/-- What the peer is told about a head that no message can be taken from. -/
def ending (p : ProtoLogic σ) (rest : Bytes) : List ConnEvent :=
  match p.msgCodec.headOf rest with
  | .waiting => []
  | .broken =>
      [.sendToClient (p.msgCodec.encodeMsg (.ofMsgId msgIdInvalidMsgLen) []),
        .onClientClosed]
  | .whole totalMsg _ =>
      match p.msgCodec.decodeMsg totalMsg with
      | .error errMsgId =>
          [.sendToClient (p.msgCodec.encodeMsg (.ofMsgId errMsgId) [])]
      | .ok _ => []

/-- A state in which the bytes of `stream` have been served from `logic` on. -/
structure Served (p : ProtoLogic σ) (logic : σ) (told : List ConnEvent)
    (stream : Bytes) (s : ConnState σ) : Prop where
  events : s.events =
    told ++ (p.serve logic (p.msgCodec.checkedFraming.drain stream).1).2 ++
      p.ending (p.msgCodec.checkedFraming.drain stream).2
  closed : p.msgCodec.headOf (p.msgCodec.checkedFraming.drain stream).2 =
    .broken → s.data = none
  opened : p.msgCodec.headOf (p.msgCodec.checkedFraming.drain stream).2 ≠
    .broken → s.data = some (p.msgCodec.checkedFraming.drain stream).2 ∧
      s.logic = (p.serve logic (p.msgCodec.checkedFraming.drain stream).1).1

def KeepsOpen (p : ProtoLogic σ) : Prop :=
  ∀ logic msgHead msgBody handled,
    p.dispatchMsg logic msgHead msgBody = some handled → handled.2 = false

/-- The buffer begins with a complete frame whose checksum is wrong. -/
def Wedged (p : ProtoLogic σ) (d : Bytes) : Prop :=
  ∃ totalMsg rest errMsgId, p.msgCodec.headOf d = .whole totalMsg rest ∧
    p.msgCodec.decodeMsg totalMsg = .error errMsgId

/-- The pass that meets the bytes left behind the messages of a buffer, if there
is one, does not find a refused length in fewer than four of them. -/
def ReadsLengths (p : ProtoLogic σ) (behind : ℕ → ℕ → UInt8) (buffer : Bytes) :
    Prop :=
  let taken := p.msgCodec.checkedFraming.drain buffer
  taken.2 ≠ [] ∨ buffer = [] →
    ¬p.msgCodec.Misreads (behind taken.1.length) taken.2

instance (behind : ℕ → ℕ → UInt8) (buffer : Bytes) :
    Decidable (p.ReadsLengths behind buffer) :=
  inferInstanceAs (Decidable (_ ∨ _ → ¬_))

/-- The condition on a call under which its chunk boundary does not show. -/
def Timely (p : ProtoLogic σ) (s : ConnState σ) (call : Bytes × RecvEnv) :
    Prop :=
  ∀ d, s.data = some d →
    ¬p.Wedged d ∧ p.ReadsLengths call.2.behind (d ++ call.1)

theorem serve_append (logic : σ) (msgs later : List (MsgHead × Bytes)) :
    p.serve logic (msgs ++ later) =
      ((p.serve (p.serve logic msgs).1 later).1,
        (p.serve logic msgs).2 ++ (p.serve (p.serve logic msgs).1 later).2) := by
  induction msgs generalizing logic with
  | nil => rfl
  | cons msg msgs ih =>
      obtain ⟨msgHead, msgBody⟩ := msg
      simp only [List.cons_append, serve, ih, List.append_assoc]

theorem KeepsOpen.handle (hstay : p.KeepsOpen) (logic : σ) (msgHead : MsgHead)
    (msgBody : Bytes) : (p.handle logic msgHead msgBody).2 = false := by
  unfold ProtoLogic.handle
  by_cases hbeat : msgHead.msgId = msgIdHeartbeatReq
  · rw [if_pos hbeat]
  · rw [if_neg hbeat]
    cases hdispatch : p.dispatchMsg logic msgHead msgBody with
    | some handled => exact hstay logic msgHead msgBody handled hdispatch
    | none =>
        simp only
        split_ifs <;> rfl

theorem ending_of_broken {rest : Bytes} (h : p.msgCodec.headOf rest = .broken) :
    p.ending rest =
      [.sendToClient (p.msgCodec.encodeMsg (.ofMsgId msgIdInvalidMsgLen) []),
        .onClientClosed] := by
  unfold ending
  rw [h]

theorem ending_of_waiting {rest : Bytes}
    (h : p.msgCodec.headOf rest = .waiting) : p.ending rest = [] := by
  unfold ending
  rw [h]

theorem ending_of_mismatch {rest totalMsg left : Bytes} {errMsgId : MsgID}
    (h : p.msgCodec.headOf rest = .whole totalMsg left)
    (hdecode : p.msgCodec.decodeMsg totalMsg = .error errMsgId) :
    p.ending rest =
      [.sendToClient (p.msgCodec.encodeMsg (.ofMsgId errMsgId) [])] := by
  unfold ending
  simp only [h, hdecode]

theorem recvPass_served {behind : ℕ → UInt8} (now : ℤ) {s : ConnState σ}
    {d : Bytes} (hopen : s.data = some d)
    (hstop : ¬p.msgCodec.checkedFraming.StartsWhole d)
    (hread : ¬p.msgCodec.Misreads behind d) :
    (p.recvPass behind now s d).2 = false ∧
      p.Served s.logic s.events d (p.recvPass behind now s d).1 := by
  have hdrain := p.msgCodec.checkedFraming.drain_of_not_startsWhole hstop
  cases hhead : p.msgCodec.headOf d with
  | waiting =>
      rw [recvPass_of_waiting hhead hread]
      refine ⟨rfl, ?_, ?_, ?_⟩
      · rw [hdrain]
        simp [serve, ending_of_waiting hhead]
      · rw [hdrain]
        intro h
        rw [hhead] at h
        cases h
      · rw [hdrain]
        exact fun _ => ⟨hopen, rfl⟩
  | broken =>
      rw [recvPass_of_refused (Or.inl hhead)]
      refine ⟨rfl, ?_, fun _ => rfl, ?_⟩
      · rw [hdrain]
        simp [serve, ending_of_broken hhead]
      · rw [hdrain]
        exact fun h => (h hhead).elim
  | whole totalMsg left =>
      cases hdecode : p.msgCodec.decodeMsg totalMsg with
      | ok msg =>
          have hwhole := MsgCodec.checkedHead_eq_whole_iff.mpr
            ⟨totalMsg, hhead, hdecode⟩
          exact (hstop ⟨msg, left, hwhole⟩).elim
      | error errMsgId =>
          rw [recvPass_of_mismatch hopen hhead hdecode]
          refine ⟨rfl, ?_, ?_, ?_⟩
          · rw [hdrain]
            simp [serve, ending_of_mismatch hhead hdecode]
          · rw [hdrain]
            intro h
            rw [hhead] at h
            cases h
          · rw [hdrain]
            exact fun _ => ⟨hopen, rfl⟩

theorem Served.start {logic : σ} {told : List ConnEvent} {s : ConnState σ}
    (hnew : s.data = some []) (hlogic : s.logic = logic) (htold : s.events = told) :
    p.Served logic told [] s := by
  have hwait : p.msgCodec.headOf [] = .waiting :=
    MsgCodec.headOf_of_short (by decide)
  have hempty := p.msgCodec.checkedFraming.drain_nil
  subst hlogic htold
  refine ⟨?_, ?_, ?_⟩
  · rw [hempty]
    simp [serve, ending_of_waiting hwait]
  · rw [hempty]
    intro h
    rw [hwait] at h
    cases h
  · rw [hempty]
    exact fun _ => ⟨hnew, rfl⟩

theorem recvLoop_served (hstay : p.KeepsOpen) (env : RecvEnv) (pass : ℕ)
    {d : Bytes} {fuel : ℕ} {s : ConnState σ} (hopen : s.data = some d)
    (hfuel : d.length < fuel)
    (hread : (p.msgCodec.checkedFraming.drain d).2 ≠ [] ∨ d = [] →
      ¬p.msgCodec.Misreads
        (env.behind (pass + (p.msgCodec.checkedFraming.drain d).1.length))
        (p.msgCodec.checkedFraming.drain d).2) :
    ∃ s', p.recvLoop env fuel pass s = some s' ∧
      p.Served s.logic s.events d s' := by
  induction d using p.msgCodec.checkedFraming.drain_induction
    generalizing fuel pass s with
  | stop d hstop =>
      obtain ⟨fuel, rfl⟩ : ∃ n, fuel = n + 1 := ⟨fuel - 1, by omega⟩
      have hdrain := p.msgCodec.checkedFraming.drain_of_not_startsWhole hstop
      rw [hdrain] at hread
      have hclean : ¬p.msgCodec.Misreads (env.behind pass) d := by
        apply hread
        by_cases hd : d = []
        · exact Or.inr hd
        · exact Or.inl hd
      obtain ⟨hlast, hserved⟩ :=
        recvPass_served env.now hopen hstop hclean
      refine ⟨_, ?_, hserved⟩
      unfold recvLoop
      simp [hopen, hlast]
  | whole d msg left hwhole ih =>
      obtain ⟨fuel, rfl⟩ : ∃ n, fuel = n + 1 := ⟨fuel - 1, by omega⟩
      obtain ⟨msgHead, msgBody⟩ := msg
      obtain ⟨totalMsg, hhead, hdecode⟩ :=
        MsgCodec.checkedHead_eq_whole_iff.mp hwhole
      have hdrain := p.msgCodec.checkedFraming.drain_whole hwhole
      have hshort : left.length < d.length := MsgCodec.headOf_whole_shorter hhead
      have hpass := recvPass_of_handled (env.behind pass) env.now hopen hhead
        hdecode (hstay.handle s.logic msgHead msgBody)
      -- serving what is left continues from the state after this message
      have hcontinue : ∀ s', p.Served (p.handle s.logic msgHead msgBody).1
          (s.events ++ .onClientMsg msgHead msgBody ::
            p.repliesTo s.logic msgHead msgBody) left s' →
          p.Served s.logic s.events d s' := by
        intro s' hserved
        refine ⟨?_, ?_, ?_⟩
        · rw [hserved.events, hdrain]
          simp [serve]
        · rw [hdrain]
          exact hserved.closed
        · rw [hdrain]
          exact hserved.opened
      unfold recvLoop
      simp only [hopen, hpass]
      by_cases hnil : left = []
      · subst hnil
        exact ⟨_, rfl, hcontinue _ (Served.start rfl rfl rfl)⟩
      · have hpos : 0 < left.length := List.length_pos_iff.mpr hnil
        simp only [hpos, decide_true, if_true]
        have hclean : (p.msgCodec.checkedFraming.drain left).2 ≠ [] ∨ left = [] →
            ¬p.msgCodec.Misreads
              (env.behind (pass + 1 +
                (p.msgCodec.checkedFraming.drain left).1.length))
              (p.msgCodec.checkedFraming.drain left).2 := by
          intro hrest
          rw [hdrain] at hread
          have hlater := hread (Or.inl (hrest.resolve_right hnil))
          rw [List.length_cons, Nat.add_comm _ 1, ← Nat.add_assoc] at hlater
          exact hlater
        have hlater := ih (pass + 1)
          (s := { data := some left
                  partMsgMgr := s.partMsgMgr.removeRecord p.conn
                  logic := (p.handle s.logic msgHead msgBody).1
                  events := s.events ++ .onClientMsg msgHead msgBody ::
                    p.repliesTo s.logic msgHead msgBody })
          rfl (Nat.lt_of_lt_of_le hshort (Nat.lt_succ_iff.mp hfuel)) hclean
        obtain ⟨s', hloop, hserved⟩ := hlater
        exact ⟨s', hloop, hcontinue s' hserved⟩

/-- **One call.**  A timely call serves its chunk behind the stream so far. -/
theorem Served.call (hstay : p.KeepsOpen) {logic : σ} {told : List ConnEvent}
    {stream : Bytes} {s : ConnState σ} {call : Bytes × RecvEnv}
    (hserved : p.Served logic told stream s) (htimely : p.Timely s call) :
    ∃ s', p.recvStep s call = some s' ∧
      p.Served logic told (stream ++ call.1) s' := by
  by_cases hbroken :
      p.msgCodec.headOf (p.msgCodec.checkedFraming.drain stream).2 = .broken
  · have hgone := hserved.closed hbroken
    have hstays := p.msgCodec.checkedFraming.drain_append_of_broken
      (MsgCodec.checkedHead_eq_broken_iff.mpr (Or.inl hbroken)) call.1
    have hbroken' := MsgCodec.headOf_broken_append hbroken call.1
    refine ⟨s, by simp [recvStep, onRecvClientData, hgone], ?_, ?_, ?_⟩
    · rw [hstays, hserved.events, ending_of_broken hbroken,
        ending_of_broken hbroken']
    · exact fun _ => hgone
    · rw [hstays]
      exact fun h => (h hbroken').elim
  · obtain ⟨hopen, hlogic⟩ := hserved.opened hbroken
    obtain ⟨hwedged, hreads⟩ := htimely _ hopen
    have hwait : p.msgCodec.headOf (p.msgCodec.checkedFraming.drain stream).2 =
        .waiting := by
      rw [← MsgCodec.checkedHead_eq_waiting_iff]
      cases hhead : p.msgCodec.checkedHead
          (p.msgCodec.checkedFraming.drain stream).2 with
      | waiting => rfl
      | broken =>
          rcases MsgCodec.checkedHead_eq_broken_iff.mp hhead with h | h
          · exact (hbroken h).elim
          · exact (hwedged h).elim
      | whole msg left =>
          exact (p.msgCodec.checkedFraming.not_startsWhole_drain_rest stream
            ⟨msg, left, hhead⟩).elim
    have hquiet : s.events = told ++
        (p.serve logic (p.msgCodec.checkedFraming.drain stream).1).2 := by
      rw [hserved.events, ending_of_waiting hwait, List.append_nil]
    have hfuel : ((p.msgCodec.checkedFraming.drain stream).2 ++ call.1).length <
        (p.msgCodec.checkedFraming.drain stream).2.length + call.1.length + 1 := by
      simp
    have hloop := recvLoop_served hstay call.2 0
      (s := { s with
        data := some ((p.msgCodec.checkedFraming.drain stream).2 ++ call.1) })
      rfl hfuel (by rw [Nat.zero_add]; exact hreads)
    obtain ⟨s', hcall, hlater⟩ := hloop
    have hdrain := p.msgCodec.checkedFraming.drain_append stream call.1
    refine ⟨s', by simpa [recvStep, onRecvClientData, hopen] using hcall, ?_, ?_, ?_⟩
    · rw [hlater.events, hdrain, serve_append, hquiet, hlogic]
      simp
    · rw [hdrain]
      exact hlater.closed
    · rw [hdrain, serve_append]
      intro h
      rw [(hlater.opened h).1, (hlater.opened h).2, hlogic]
      exact ⟨rfl, rfl⟩

/-- **A run of calls.**  Timely calls serve their chunks as one stream. -/
theorem Served.run (hstay : p.KeepsOpen) {logic : σ} {told : List ConnEvent}
    {stream : Bytes} {s : ConnState σ} {calls : List (Bytes × RecvEnv)}
    (hserved : p.Served logic told stream s)
    (htimely : LabelledRun.Guarded p.recvStep p.Timely s calls) :
    ∃ s', LabelledRun.run p.recvStep s calls = some s' ∧
      p.Served logic told (stream ++ (calls.map Prod.fst).flatten) s' := by
  induction calls generalizing stream s with
  | nil => exact ⟨s, rfl, by simpa using hserved⟩
  | cons call calls ih =>
      have hreturns : ∃ s', p.recvStep s call = some s' :=
        Option.isSome_iff_exists.mp (onRecvClientData_isSome call.2 s call.1)
      obtain ⟨s', hcall⟩ := hreturns
      obtain ⟨hfirst, hrest⟩ := htimely s' hcall
      obtain ⟨s'', hcall', hserved'⟩ := hserved.call hstay hfirst
      rw [hcall, Option.some.injEq] at hcall'
      subst hcall'
      obtain ⟨t, hrun, ht⟩ := ih hserved' hrest
      refine ⟨t, ?_, by simpa using ht⟩
      rw [LabelledRun.run, hcall, Option.bind_some, hrun]

/-- The call returns with its bytes behind those of the buffer, nobody has been
told anything, and the part-message record is there. -/
def OnlyWaits (p : ProtoLogic σ) (env : RecvEnv) (s : ConnState σ)
    (d chunk : Bytes) : Prop :=
  ∃ s', p.onRecvClientData env s chunk = some s' ∧ s'.data = some (d ++ chunk) ∧
    s'.events = s.events ∧ s'.partMsgMgr.recordExist p.conn

theorem onlyWaits_iff {env : RecvEnv} {s : ConnState σ} {d chunk : Bytes}
    (hopen : s.data = some d)
    (hshort : (d ++ chunk).length < totalMsgLenFieldLen) :
    p.OnlyWaits env s d chunk ↔
      ¬p.msgCodec.Misreads (env.behind 0) (d ++ chunk) := by
  have hcall : p.onRecvClientData env s chunk =
      p.recvLoop env (d.length + chunk.length + 1) 0
        { s with data := some (d ++ chunk) } := by
    simp only [onRecvClientData, hopen]
  have hwait : p.msgCodec.headOf (d ++ chunk) = .waiting :=
    MsgCodec.headOf_of_short hshort
  unfold OnlyWaits
  rw [hcall]
  unfold recvLoop
  simp only
  constructor
  · rintro ⟨s', hs', hdata, -, -⟩ hread
    rw [recvPass_of_refused (Or.inr hread)] at hs'
    simp only [Bool.false_eq_true, if_false, Option.some.injEq] at hs'
    subst hs'
    cases hdata
  · intro hread
    rw [recvPass_of_waiting hwait hread]
    refine ⟨_, rfl, rfl, rfl, ?_⟩
    rw [RecordTimeoutMgr.recordExist_upsertRecord]
    simp

/-- **Reassembly does not see chunk boundaries** in runs of timely calls: the
events are those of the whole stream in one call.  A buffer shorter than a length
field only waits unless the memory behind it is taken for one. -/
theorem recvRun_chunking (p : ProtoLogic σ) (hstay : p.KeepsOpen)
    (s : ConnState σ) (hnew : s.data = some []) :
    (∀ calls wholeEnv,
      LabelledRun.Guarded p.recvStep p.Timely s calls →
      LabelledRun.Guarded p.recvStep p.Timely s
        [((calls.map Prod.fst).flatten, wholeEnv)] →
      ∃ t whole, LabelledRun.run p.recvStep s calls = some t ∧
        LabelledRun.run p.recvStep s [((calls.map Prod.fst).flatten, wholeEnv)] =
          some whole ∧ t.events = whole.events) ∧
    ∀ env t d chunk, t.data = some d →
      (d ++ chunk).length < totalMsgLenFieldLen →
      (p.OnlyWaits env t d chunk ↔
        ¬p.msgCodec.Misreads (env.behind 0) (d ++ chunk)) := by
  constructor
  · intro calls wholeEnv hcalls hwhole
    obtain ⟨t, hrun, ht⟩ := (Served.start hnew rfl rfl).run hstay hcalls
    obtain ⟨whole, hrun', hserved'⟩ := (Served.start hnew rfl rfl).run hstay hwhole
    refine ⟨t, whole, hrun, hrun', ?_⟩
    rw [ht.events, hserved'.events]
    simp
  · intro env t d chunk hopen hshort
    exact onlyWaits_iff hopen hshort

/-! ## Runs on fixed bytes -/

/-- Every message id has a handler, and no handler closes the connection. -/
def quietLogic (doChecksum : Bool) : ProtoLogic Unit where
  msgCodec :=
    { maxTotalMsgLen := 64, doChecksum := doChecksum, fastCRC32 := crc32Bitwise }
  conn := 1
  connGuid := ⟨1, 0, 1⟩
  partMsgConnLife := 30
  workThreadCount := 0
  dispatchMsg := fun _ _ _ => some ((), false)
  sendToWorkThread := fun _ _ _ => ((), false)
  onClientClosed := id

def newConn : ConnState Unit where
  data := some []
  partMsgMgr := .empty
  logic := ()
  events := []

def zeroEnv : RecvEnv where
  behind := fun _ _ => 0
  now := 0

def bareFrame : Bytes := [0, 0, 0, 12, 0, 0, 0, 0, 0, 0, 0, 1, 0, 0, 0, 2]

theorem quietLogic_keepsOpen (doChecksum : Bool) :
    (quietLogic doChecksum).KeepsOpen := by
  intro logic msgHead msgBody handled h
  simp only [quietLogic, Option.some.injEq] at h
  rw [← h]

theorem not_wedged_of_waiting {d : Bytes} (h : p.msgCodec.headOf d = .waiting) :
    ¬p.Wedged d := by
  rintro ⟨totalMsg, rest, errMsgId, hwhole, -⟩
  rw [h] at hwhole
  cases hwhole

theorem recvRun_chunking_split_frame :
    ∃ t whole,
      LabelledRun.run (quietLogic false).recvStep newConn
        [(bareFrame.take 5, zeroEnv), (bareFrame.drop 5, zeroEnv)] = some t ∧
      LabelledRun.run (quietLogic false).recvStep newConn
        [(bareFrame, zeroEnv)] = some whole ∧ t.events = whole.events := by
  have hempty : (quietLogic false).msgCodec.headOf [] = .waiting :=
    MsgCodec.headOf_of_short (by decide)
  have hcut : (quietLogic false).msgCodec.headOf (bareFrame.take 5) = .waiting := by
    rfl
  refine (recvRun_chunking (quietLogic false) (quietLogic_keepsOpen false)
    newConn rfl).1 [(bareFrame.take 5, zeroEnv), (bareFrame.drop 5, zeroEnv)]
    zeroEnv ?_ ?_
  · intro s hs
    have hdata : ((quietLogic false).recvStep newConn
        (bareFrame.take 5, zeroEnv)).map (·.data) =
        some (some (bareFrame.take 5)) := by decide +kernel
    rw [hs, Option.map_some, Option.some.injEq] at hdata
    refine ⟨?_, fun t ht => ⟨?_, trivial⟩⟩
    · intro d hd
      simp only [newConn, Option.some.injEq] at hd
      subst hd
      exact ⟨not_wedged_of_waiting hempty, by decide +kernel⟩
    · intro d hd
      rw [hdata, Option.some.injEq] at hd
      subst hd
      exact ⟨not_wedged_of_waiting hcut, by decide +kernel⟩
  · intro s hs
    refine ⟨?_, trivial⟩
    intro d hd
    simp only [newConn, Option.some.injEq] at hd
    subst hd
    exact ⟨not_wedged_of_waiting hempty, by decide +kernel⟩

/-- One byte of a length field closes the connection. -/
theorem recvRun_chunking_one_byte :
    ¬∀ calls wholeEnv,
      (LabelledRun.run (quietLogic false).recvStep newConn calls).map
          (·.events) =
        (LabelledRun.run (quietLogic false).recvStep newConn
          [((calls.map Prod.fst).flatten, wholeEnv)]).map (·.events) := by
  intro h
  have hsplit := h [([0], zeroEnv), (bareFrame.tail, zeroEnv)] zeroEnv
  revert hsplit
  decide +kernel

theorem consumesFrames_wrong_checksum :
    ¬∀ env s chunk, (quietLogic true).ConsumesFrames env s chunk := by
  intro h
  obtain ⟨s', hcall, hconsumed⟩ := h zeroEnv newConn bareFrame
  have hdata : ((quietLogic true).onRecvClientData zeroEnv newConn bareFrame).map
      (·.data) = some (some bareFrame) := by decide +kernel
  rw [hcall, Option.map_some, Option.some.injEq] at hdata
  have hrest := (hconsumed [] bareFrame rfl hdata).noWholeFrame
  have hwhole : (quietLogic true).msgCodec.headOf bareFrame =
      .whole (bareFrame.drop 4) [] :=
    MsgCodec.headOf_eq_whole_iff.mpr (by decide +kernel)
  exact hrest ⟨_, _, hwhole⟩

end ProtoLogic

end CommonComponent
