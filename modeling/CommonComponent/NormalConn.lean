import CommonComponent.LabelledRun
import CommonComponent.ProtoMsgCodec
import Mathlib.Tactic

/-!
# The send list of a connection

`NormalConn::Send` queues data and has libevent call `WriteCallback` while there
is some.  `WriteCallback` writes element after element; a `write` may take a part
of an element only, and where it takes nothing more the callback leaves the
unwritten part at the front of the list.

Every `write` is an action of its own, so a run may stop anywhere in a callback.
The bytes the socket has taken are a prefix of what was sent, whatever the calls
of `write` return.
-/

namespace CommonComponent

open LabelledRun

/-- What `write` returns: a count, or an error by its class. -/
inductive WriteResult
  | wrote (n : ℕ)
  | interrupted
  | again
  | peerClosed
  | failed
deriving DecidableEq

/-- `write_event_`, where there is one with whether it is pending, and
`send_list_`. -/
structure NormalConn where
  writeEvent : Option Bool
  sendList : List Bytes

namespace NormalConn

def init : NormalConn where
  writeEvent := none
  sendList := []

def pushBack (conn : NormalConn) (data : Bytes) : NormalConn where
  writeEvent := some true
  sendList := conn.sendList ++ [data]

/-- `Send`, with whether it returns 0. -/
def send (conn : NormalConn) (data : Bytes) (eventNew eventAdd : Bool) :
    NormalConn × Bool :=
  match conn.writeEvent with
  | none =>
      if !eventNew then (conn, false)
      else if !eventAdd then (conn, false)
      else (conn.pushBack data, true)
  | some _ =>
      if conn.sendList.isEmpty then
        if !eventAdd then ({ conn with writeEvent := none }, false)
        else (conn.pushBack data, true)
      else ({ conn with sendList := conn.sendList ++ [data] }, true)

/-- The head of the loop of `WriteCallback`: `sent_len` and `want_send_len` for
the next element, or the end of the callback. -/
def nextElement (conn : NormalConn) (eventDel : Bool) :
    NormalConn × Option (ℕ × ℕ) :=
  match conn.sendList with
  | [] =>
      if eventDel then
        ({ conn with writeEvent := conn.writeEvent.map fun _ => false }, none)
      else (conn, none)
  | data :: _ => (conn, some (0, data.length))

end NormalConn

/-- A connection in a run: `sent_len` and `want_send_len` while `WriteCallback` is
at an element; the data of the `Send` calls that returned 0 and what `write` has
taken of it, one after the other; and what has gone wrong. -/
structure SendRun where
  conn : NormalConn
  writing : Option (ℕ × ℕ)
  sent : Bytes
  accepted : Bytes
  reset : Bool
  delFailed : Bool

inductive SendAction
  | send (data : Bytes) (eventNew eventAdd : Bool)
  | writeCallback (eventDel : Bool)
  | write (result : WriteResult) (eventDel : Bool)

namespace SendRun

def init : SendRun where
  conn := .init
  writing := none
  sent := []
  accepted := []
  reset := false
  delFailed := false

def nextElement (s : SendRun) (eventDel : Bool) : SendRun :=
  let (conn, writing) := s.conn.nextElement eventDel
  { s with
    conn := conn
    writing := writing
    delFailed := s.delFailed || (writing.isNone && !eventDel) }

def keepRest (s : SendRun) (data : Bytes) (rest : List Bytes)
    (sentLen wantSendLen : ℕ) : SendRun :=
  { s with
    conn := { s.conn with
      sendList := (data.drop sentLen).take wantSendLen :: rest }
    writing := none }

def write (s : SendRun) (data : Bytes) (rest : List Bytes)
    (sentLen wantSendLen : ℕ) (eventDel : Bool) : WriteResult → Option SendRun
  | .wrote n =>
      -- no more than asked for, and nothing once the connection was reset
      if wantSendLen < n ∨ (s.reset = true ∧ 0 < n) then none
      else if n = 0 then some s
      else
        let s := { s with accepted := s.accepted ++ (data.drop sentLen).take n }
        if sentLen + n = data.length then
          some (nextElement { s with conn := { s.conn with sendList := rest } }
            eventDel)
        else some { s with writing := some (sentLen + n, wantSendLen - n) }
  | .interrupted => some s
  | .again => some (s.keepRest data rest sentLen wantSendLen)
  | .failed => some (s.keepRest data rest sentLen wantSendLen)
  | .peerClosed => some { s with writing := none, reset := true }

def step (s : SendRun) : SendAction → Option SendRun
  | .send data eventNew eventAdd =>
      match s.writing with
      | some _ => none
      | none =>
          let (conn, queued) := s.conn.send data eventNew eventAdd
          some { s with
            conn := conn
            sent := if queued then s.sent ++ data else s.sent }
  | .writeCallback eventDel =>
      if s.writing = none ∧ s.conn.writeEvent = some true then
        some (s.nextElement eventDel)
      else none
  | .write result eventDel =>
      match s.writing, s.conn.sendList with
      | some (sentLen, wantSendLen), data :: rest =>
          s.write data rest sentLen wantSendLen eventDel result
      | _, _ => none

/-- How much of the first element is written. -/
def sentLen (s : SendRun) : ℕ := s.writing.elim 0 Prod.fst

structure StreamOk (s : SendRun) : Prop where
  wire : s.accepted <+: s.sent
  remaining : s.reset = false →
    s.accepted ++ s.conn.sendList.flatten.drop s.sentLen = s.sent
  pending : s.delFailed = false →
    (s.conn.writeEvent = some true ↔ s.conn.sendList ≠ [])

structure Inv (s : SendRun) : Prop extends StreamOk s where
  element : ∀ sentLen wantSendLen, s.writing = some (sentLen, wantSendLen) →
    ∃ data rest, s.conn.sendList = data :: rest ∧
      sentLen + wantSendLen = data.length
  queued : s.conn.sendList ≠ [] → s.conn.writeEvent = some true

theorem Inv.init : init.Inv where
  wire := List.prefix_rfl
  remaining := fun _ => rfl
  pending := fun _ => by simp [SendRun.init, NormalConn.init]
  element := fun _ _ h => nomatch h
  queued := fun h => absurd rfl h

/-- A call of `Send` queues its data, or fails on an empty list. -/
theorem send_cases (conn : NormalConn) (data : Bytes) (eventNew eventAdd : Bool)
    (hqueued : conn.sendList ≠ [] → conn.writeEvent = some true) :
    conn.send data eventNew eventAdd = (conn.pushBack data, true) ∨
      ∃ conn', conn.send data eventNew eventAdd = (conn', false) ∧
        conn.sendList = [] ∧ conn'.sendList = [] ∧
        (conn'.writeEvent = conn.writeEvent ∨ conn'.writeEvent = none) := by
  unfold NormalConn.send
  cases hevent : conn.writeEvent with
  | none =>
      have hempty : conn.sendList = [] := by
        by_contra hne
        simp [hqueued hne] at hevent
      cases eventNew with
      | false => exact .inr ⟨conn, rfl, hempty, hempty, .inl hevent⟩
      | true =>
          cases eventAdd with
          | false => exact .inr ⟨conn, rfl, hempty, hempty, .inl hevent⟩
          | true => exact .inl rfl
  | some pending =>
      by_cases hempty : conn.sendList = []
      · simp only [hempty, List.isEmpty_nil, if_true]
        cases eventAdd with
        | false => exact .inr ⟨_, rfl, trivial, rfl, .inr rfl⟩
        | true => exact .inl rfl
      · have hpending := hqueued hempty
        rw [hevent, Option.some.injEq] at hpending
        refine .inl ?_
        simp [hempty, NormalConn.pushBack, hpending]

/-- The loop goes on to the next element, or ends with the event taken out. -/
theorem Inv.nextElement {s : SendRun} (hwire : s.accepted <+: s.sent)
    (hfront : s.reset = false →
      s.accepted ++ s.conn.sendList.flatten = s.sent)
    (hpending : s.conn.writeEvent = some true) (eventDel : Bool) :
    (s.nextElement eventDel).Inv := by
  unfold SendRun.nextElement NormalConn.nextElement
  cases hlist : s.conn.sendList with
  | nil =>
      rw [hlist] at hfront
      cases eventDel with
      | true =>
          simp only [if_true]
          constructor
          · exact ⟨hwire, fun hreset => by simpa [sentLen, hlist] using hfront hreset,
              fun _ => by simp⟩
          · exact fun _ _ hwriting => nomatch hwriting
          · exact fun hne => absurd rfl hne
      | false =>
          simp only [Bool.false_eq_true, if_false]
          constructor
          · exact ⟨hwire, fun hreset => by simpa [sentLen, hlist] using hfront hreset,
              fun hfailed => by simp at hfailed⟩
          · exact fun _ _ hwriting => nomatch hwriting
          · exact fun hne => absurd hlist hne
  | cons data rest =>
      constructor
      · refine ⟨hwire, fun hreset => ?_, fun _ => by simp [hlist, hpending]⟩
        simpa [sentLen] using hfront hreset
      · intro sentLen wantSendLen hwriting
        obtain ⟨rfl, rfl⟩ : 0 = sentLen ∧ data.length = wantSendLen := by
          simpa using hwriting
        exact ⟨data, rest, hlist, by omega⟩
      · exact fun _ => hpending

theorem Inv.send {s : SendRun} (h : s.Inv) (hwriting : s.writing = none)
    (data : Bytes) (eventNew eventAdd : Bool) {conn : NormalConn} {queued : Bool}
    (hsend : s.conn.send data eventNew eventAdd = (conn, queued)) :
    Inv { s with
      conn := conn
      sent := if queued then s.sent ++ data else s.sent } := by
  have hremaining : s.reset = false →
      s.accepted ++ s.conn.sendList.flatten = s.sent := fun hreset => by
    simpa [sentLen, hwriting] using h.remaining hreset
  rcases send_cases s.conn data eventNew eventAdd h.queued with
    hpush | ⟨conn', hfail, hempty, hempty', hevent⟩
  · rw [hpush, Prod.mk.injEq] at hsend
    obtain ⟨rfl, rfl⟩ := hsend
    constructor
    · refine ⟨h.wire.trans (List.prefix_append _ _), fun hreset => ?_, fun _ => ?_⟩
      · simp [sentLen, hwriting, NormalConn.pushBack, ← hremaining hreset]
      · simp [NormalConn.pushBack]
    · simp [hwriting]
    · exact fun _ => rfl
  · rw [hfail, Prod.mk.injEq] at hsend
    obtain ⟨rfl, rfl⟩ := hsend
    constructor
    · refine ⟨h.wire, fun hreset => ?_, fun hfailed => ?_⟩
      · simpa [sentLen, hwriting, hempty, hempty'] using hremaining hreset
      · have hidle := h.pending hfailed
        rcases hevent with hevent | hevent <;> simp_all
    · simp [hwriting]
    · exact fun hne => absurd hempty' hne

/-- **What one `write` does.**  The part it takes goes to the wire; the rest stays
the front of the list. -/
theorem Inv.write {s s' : SendRun} (h : s.Inv) {data : Bytes} {rest : List Bytes}
    {sentLen wantSendLen : ℕ} (hwriting : s.writing = some (sentLen, wantSendLen))
    (hlist : s.conn.sendList = data :: rest) {result : WriteResult}
    {eventDel : Bool}
    (hwrite : s.write data rest sentLen wantSendLen eventDel result = some s') :
    s'.Inv := by
  obtain ⟨_, _, hlist', hlen⟩ := h.element _ _ hwriting
  rw [hlist, List.cons.injEq] at hlist'
  obtain ⟨rfl, rfl⟩ := hlist'
  have hpending : s.conn.writeEvent = some true := h.queued (by simp [hlist])
  have hremaining : s.reset = false →
      s.accepted ++ (data.drop sentLen ++ rest.flatten) = s.sent := by
    intro hreset
    have hall := h.remaining hreset
    simpa [SendRun.sentLen, hwriting, hlist,
      List.drop_append_of_le_length (show sentLen ≤ data.length by omega)] using hall
  have hkeep : (s.keepRest data rest sentLen wantSendLen).Inv := by
    have htake : (data.drop sentLen).take wantSendLen = data.drop sentLen :=
      List.take_of_length_le (by simp; omega)
    constructor
    · refine ⟨h.wire, fun hreset => ?_, fun _ => by simp [keepRest, hpending]⟩
      simpa [SendRun.sentLen, keepRest, htake] using hremaining hreset
    · exact fun _ _ hnone => nomatch hnone
    · exact fun _ => hpending
  cases result with
  | interrupted => exact Option.some.inj hwrite ▸ h
  | again => exact Option.some.inj hwrite ▸ hkeep
  | failed => exact Option.some.inj hwrite ▸ hkeep
  | peerClosed =>
      obtain rfl := Option.some.inj hwrite
      constructor
      · exact ⟨h.wire, fun hopen => Bool.noConfusion hopen, h.pending⟩
      · exact fun _ _ hnone => nomatch hnone
      · exact h.queued
  | wrote n =>
      simp only [SendRun.write] at hwrite
      by_cases hrefused : wantSendLen < n ∨ (s.reset = true ∧ 0 < n)
      · simp [hrefused] at hwrite
      · rw [if_neg hrefused] at hwrite
        rw [not_or, not_lt, not_and, not_lt] at hrefused
        obtain ⟨hle, hreset⟩ := hrefused
        by_cases hzero : n = 0
        · rw [if_pos hzero] at hwrite
          exact Option.some.inj hwrite ▸ h
        · have hopen : s.reset = false := by
            cases hr : s.reset with
            | false => rfl
            | true =>
                have hn := hreset hr
                omega
          -- the bytes taken are the next ones to be sent
          have hsplit : s.accepted ++ (data.drop sentLen).take n ++
              (data.drop (sentLen + n) ++ rest.flatten) = s.sent := by
            rw [← hremaining hopen, List.append_assoc, ← List.append_assoc (List.take n _),
              ← List.drop_drop, List.take_append_drop]
          have hwire : s.accepted ++ (data.drop sentLen).take n <+: s.sent :=
            ⟨_, hsplit⟩
          rw [if_neg hzero] at hwrite
          by_cases hall : sentLen + n = data.length
          · rw [if_pos hall] at hwrite
            obtain rfl := Option.some.inj hwrite
            refine Inv.nextElement (s := { s with
              accepted := s.accepted ++ (data.drop sentLen).take n
              conn := { s.conn with sendList := rest } }) hwire (fun _ => ?_)
              hpending eventDel
            simpa [hall] using hsplit
          · rw [if_neg hall] at hwrite
            obtain rfl := Option.some.inj hwrite
            constructor
            · refine ⟨hwire, fun _ => ?_, h.pending⟩
              simpa [SendRun.sentLen, hlist,
                List.drop_append_of_le_length
                  (show sentLen + n ≤ data.length by omega)] using hsplit
            · intro sentLen' wantSendLen' hnext
              obtain ⟨rfl, rfl⟩ : sentLen + n = sentLen' ∧
                  wantSendLen - n = wantSendLen' := by simpa using hnext
              exact ⟨data, rest, hlist, by omega⟩
            · exact h.queued

theorem Inv.step {s s' : SendRun} {a : SendAction} (h : s.Inv)
    (hstep : s.step a = some s') : s'.Inv := by
  cases a with
  | send data eventNew eventAdd =>
      cases hwriting : s.writing with
      | some element => simp [SendRun.step, hwriting] at hstep
      | none =>
          cases hsend : s.conn.send data eventNew eventAdd with
          | mk conn queued =>
              have hqueue := h.send hwriting data eventNew eventAdd hsend
              simp only [SendRun.step, hwriting, hsend, Option.some.injEq] at hstep
              exact hstep ▸ hwriting ▸ hqueue
  | writeCallback eventDel =>
      obtain ⟨⟨hwriting, hpending⟩, hstep⟩ :=
        Option.ite_none_right_eq_some.mp hstep
      obtain rfl := Option.some.inj hstep
      refine Inv.nextElement h.wire (fun hreset => ?_) hpending eventDel
      simpa [sentLen, hwriting] using h.remaining hreset
  | write result eventDel =>
      cases hwriting : s.writing with
      | none => simp [SendRun.step, hwriting] at hstep
      | some element =>
          obtain ⟨sentLen, wantSendLen⟩ := element
          obtain ⟨data, rest, hlist, -⟩ := h.element _ _ hwriting
          simp only [SendRun.step, hwriting, hlist] at hstep
          exact h.write hwriting hlist hstep

/-- **The send stream.**  In every state of every run, also between two `write`s
of one callback, the bytes the socket has taken are a prefix of the data that was
sent; until a reset what follows is what is left in the list, in order; and the
write event is pending exactly while the list has an element, unless an
`event_del` has failed. -/
theorem run_streamOk (actions : List SendAction) :
    Along step StreamOk (fun _ _ _ => True) init actions :=
  along_of_inv (fun _ h => h.toStreamOk)
    (fun _ _ _ h hstep => ⟨h.step hstep, trivial⟩) actions Inv.init

/-- Two sends, and a callback that stops inside the first of them. -/
example : (run step init [.send [1, 2, 3] true true, .send [4] true true,
    .writeCallback true, .write (.wrote 1) true, .write .interrupted true,
    .write (.wrote 1) true, .write .again true]).map
      (fun s => (s.accepted, s.conn.sendList)) = some ([1, 2], [[3], [4]]) := rfl

end SendRun

end CommonComponent
