import CommonComponent.FueledLoop
import CommonComponent.NormalConn

/-!
# Whether `WriteCallback` comes to an end

`SendRun` takes every `write` as an action of its own.  Here one call of
`WriteCallback` is a whole: its two loops run against a `write` that may answer
differently each time, and the question is whether they end.

A `write` of no bytes returns 0, and 0 means "try again" to the callback.  The
callback therefore ends whatever `write` does exactly when no element of the list
is empty, and `Send` queues an empty element when it is called without data.
-/

namespace CommonComponent

open LabelledRun FueledLoop

namespace NormalConn

/-- One pass of the inner loop: the connection, and `sent_len` and `want_send_len`
for the next pass if there is one. -/
def writeOnce (conn : NormalConn) (sentLen wantSendLen : ℕ) (eventDel : Bool)
    (result : WriteResult) : NormalConn × Option (ℕ × ℕ) :=
  match conn.sendList with
  | [] => (conn, none)
  | data :: rest =>
      let keepRest : NormalConn :=
        { conn with sendList := (data.drop sentLen).take wantSendLen :: rest }
      match result with
      | .wrote n =>
          if n = 0 then (conn, some (sentLen, wantSendLen))
          else if sentLen + n = data.length then
            { conn with sendList := rest }.nextElement eventDel
          else (conn, some (sentLen + n, wantSendLen - n))
      | .interrupted => (conn, some (sentLen, wantSendLen))
      | .again => (keepRest, none)
      | .failed => (keepRest, none)
      | .peerClosed => (conn, none)

/-- The pass as the body of a loop; `write k n` is what the call of number `k`
returns when it is asked for `n` bytes. -/
def writePass (write : ℕ → ℕ → WriteResult) (eventDel : Bool) (k : ℕ)
    (s : NormalConn × ℕ × ℕ) : NormalConn ⊕ NormalConn × ℕ × ℕ :=
  match s.1.writeOnce s.2.1 s.2.2 eventDel (write k s.2.2) with
  | (conn, none) => .inl conn
  | (conn, some element) => .inr (conn, element)

/-- One call of `WriteCallback`, if `fuel` writes are enough for it. -/
def writeCallback (write : ℕ → ℕ → WriteResult) (eventDel : Bool) (fuel : ℕ)
    (conn : NormalConn) : Option NormalConn :=
  match conn.nextElement eventDel with
  | (conn, none) => some conn
  | (conn, some element) => loop (writePass write eventDel) fuel 0 (conn, element)

end NormalConn

/-- A `write` takes no more than it is asked for, returns 0 for no bytes, and for
some bytes comes sooner or later to take one or to fail for good. -/
structure FairWrite (write : ℕ → ℕ → WriteResult) : Prop where
  le : ∀ k n m, write k n = .wrote m → m ≤ n
  empty : ∀ k, write k 0 = .wrote 0
  progress : ∀ k n, 0 < n →
    ∃ i, k ≤ i ∧ write i n ≠ .wrote 0 ∧ write i n ≠ .interrupted

namespace NormalConn

/-- `WriteCallback` comes to an end whatever a fair `write` does. -/
def CallbackEnds (conn : NormalConn) : Prop :=
  ∀ write, FairWrite write → ∀ eventDel, ∃ fuel conn',
    conn.writeCallback write eventDel fuel = some conn'

variable {write : ℕ → ℕ → WriteResult} (eventDel : Bool)

/-- What the callback still has to write when it is at an element. -/
def leftToWrite (s : NormalConn × ℕ × ℕ) : ℕ :=
  s.2.2 + (s.1.sendList.drop 1).flatten.length

/-- The callback is inside a list without empty elements, and not at the end of
one. -/
structure AtElement (s : NormalConn × ℕ × ℕ) : Prop where
  element : ∃ data rest, s.1.sendList = data :: rest ∧ s.2.1 + s.2.2 = data.length
  nonempty : [] ∉ s.1.sendList
  more : 0 < s.2.2

theorem nextElement_cons (conn : NormalConn) {data : Bytes} {rest : List Bytes}
    (hlist : conn.sendList = data :: rest) (eventDel : Bool) :
    conn.nextElement eventDel = (conn, some (0, data.length)) := by
  simp [nextElement, hlist]

theorem nextElement_nil (conn : NormalConn) (hlist : conn.sendList = [])
    (eventDel : Bool) : ∃ conn', conn.nextElement eventDel = (conn', none) := by
  unfold nextElement
  rw [hlist]
  cases eventDel with
  | true => exact ⟨_, rfl⟩
  | false => exact ⟨_, rfl⟩

theorem atElement_start {conn : NormalConn} {data : Bytes} {rest : List Bytes}
    (hlist : conn.sendList = data :: rest) (hempty : [] ∉ conn.sendList) :
    AtElement (conn, 0, data.length) where
  element := ⟨data, rest, hlist, by simp⟩
  nonempty := hempty
  more := by
    rw [hlist, List.mem_cons, not_or] at hempty
    exact List.length_pos_iff.mpr (Ne.symm hempty.1)

theorem writePass_cases (hfair : FairWrite write) (k : ℕ) {s : NormalConn × ℕ × ℕ}
    (hs : AtElement s) :
    ((write k s.2.2 = .wrote 0 ∨ write k s.2.2 = .interrupted) ∧
        writePass write eventDel k s = .inr s) ∨
      (∃ conn, writePass write eventDel k s = .inl conn) ∨
      ∃ s', writePass write eventDel k s = .inr s' ∧ AtElement s' ∧
        leftToWrite s' < leftToWrite s := by
  obtain ⟨conn, sentLen, wantSendLen⟩ := s
  obtain ⟨⟨data, rest, hlist, hlen⟩, hempty, hmore⟩ := hs
  dsimp only at hlist hlen hempty hmore ⊢
  cases hresult : write k wantSendLen with
  | interrupted => exact .inl ⟨.inr rfl, by simp [writePass, writeOnce, hlist, hresult]⟩
  | again => exact .inr (.inl ⟨_, by simp [writePass, writeOnce, hlist, hresult]; rfl⟩)
  | failed => exact .inr (.inl ⟨_, by simp [writePass, writeOnce, hlist, hresult]; rfl⟩)
  | peerClosed => exact .inr (.inl ⟨_, by simp [writePass, writeOnce, hlist, hresult]; rfl⟩)
  | wrote n =>
      have hle : n ≤ wantSendLen := hfair.le k wantSendLen n hresult
      by_cases hzero : n = 0
      · subst hzero
        exact .inl ⟨.inl rfl, by simp [writePass, writeOnce, hlist, hresult]⟩
      by_cases hall : sentLen + n = data.length
      · cases rest with
        | nil =>
            -- the list is written out
            obtain ⟨conn', hnext⟩ := nextElement_nil { conn with sendList := [] } rfl eventDel
            refine .inr (.inl ⟨conn', ?_⟩)
            simp [writePass, writeOnce, hlist, hresult, hzero, hall, hnext]
        | cons data' rest =>
            have hnext := nextElement_cons { conn with sendList := data' :: rest } rfl
              eventDel
            have hempty' : [] ∉ data' :: rest := fun hmem =>
              hempty (hlist ▸ List.mem_cons_of_mem data hmem)
            refine .inr (.inr ⟨({ conn with sendList := data' :: rest }, 0, data'.length),
              ?_, ?_, ?_⟩)
            · simp [writePass, writeOnce, hlist, hresult, hzero, hall, hnext]
            · exact atElement_start rfl hempty'
            · simp [leftToWrite, hlist]
              omega
      · refine .inr (.inr ⟨(conn, sentLen + n, wantSendLen - n), ?_, ?_, ?_⟩)
        · simp [writePass, writeOnce, hlist, hresult, hzero, hall]
        · exact ⟨⟨data, rest, hlist, by dsimp only; omega⟩, hempty, by dsimp only; omega⟩
        · simp only [leftToWrite]
          omega

/-- From every element some later pass leaves or gets on. -/
theorem writePass_progress (hfair : FairWrite write) (k : ℕ) {s : NormalConn × ℕ × ℕ}
    (hs : AtElement s) :
    ∃ d, (∀ i, k ≤ i → i < k + d → writePass write eventDel i s = .inr s) ∧
      ((∃ conn, writePass write eventDel (k + d) s = .inl conn ∧ True) ∨
        ∃ s', writePass write eventDel (k + d) s = .inr s' ∧ AtElement s' ∧
          leftToWrite s' < leftToWrite s) := by
  have hlater : ∃ d, write (k + d) s.2.2 ≠ .wrote 0 ∧
      write (k + d) s.2.2 ≠ .interrupted := by
    obtain ⟨i, hle, hi⟩ := hfair.progress k s.2.2 hs.more
    exact ⟨i - k, by rwa [Nat.add_sub_cancel' hle]⟩
  -- the first such write
  classical
  obtain ⟨hwrote, hinterrupted⟩ := Nat.find_spec hlater
  refine ⟨Nat.find hlater, fun i hle hlt => ?_, ?_⟩
  · rcases writePass_cases eventDel hfair i hs with
      ⟨-, hsame⟩ | hother
    · exact hsame
    · have hidle := Nat.find_min hlater (m := i - k) (by omega)
      rw [Nat.add_sub_cancel' hle, not_and_or, not_not, not_not] at hidle
      obtain ⟨⟨data, rest, hlist, -⟩, -, -⟩ := hs
      rcases hidle with hidle | hidle <;>
        simp [writePass, writeOnce, hlist, hidle]
  · rcases writePass_cases eventDel hfair (k + Nat.find hlater) hs with
      ⟨hidle, -⟩ | ⟨conn, hleave⟩ | hnext
    · exact absurd hidle (not_or.mpr ⟨hwrote, hinterrupted⟩)
    · exact .inl ⟨conn, hleave, trivial⟩
    · exact .inr hnext

theorem callbackEnds_of_nonempty {conn : NormalConn} (hempty : [] ∉ conn.sendList) :
    conn.CallbackEnds := by
  intro write hfair eventDel
  cases hlist : conn.sendList with
  | nil =>
      obtain ⟨conn', hnext⟩ := nextElement_nil conn hlist eventDel
      exact ⟨0, conn', by simp [writeCallback, hnext]⟩
  | cons data rest =>
      obtain ⟨conn', ⟨fuel, hfuel⟩, -⟩ := Ends.of_measure leftToWrite
        (fun k _ hs => writePass_progress eventDel hfair k hs) 0
        (atElement_start hlist hempty)
      refine ⟨fuel, conn', ?_⟩
      rw [writeCallback, nextElement_cons conn hlist]
      exact hfuel

/-! ## Lists with an empty element -/

def writeAll (_ n : ℕ) : WriteResult := .wrote n

theorem fairWrite_writeAll : FairWrite writeAll where
  le := fun _ n m h => by
    obtain rfl := WriteResult.wrote.inj h
    exact le_rfl
  empty := fun _ => rfl
  progress := fun k n hn => ⟨k, le_rfl, by
    rw [writeAll, Ne, WriteResult.wrote.injEq]
    exact ⟨Nat.pos_iff_ne_zero.mp hn, nofun⟩⟩

/-- The callback is at the start of an element and has an empty one before it. -/
structure BeforeEmpty (s : NormalConn × ℕ × ℕ) : Prop where
  start : ∃ data rest, s.1.sendList = data :: rest ∧ s.2 = (0, data.length)
  empty : [] ∈ s.1.sendList

theorem writePass_beforeEmpty (k : ℕ) (s : NormalConn × ℕ × ℕ) (hs : BeforeEmpty s) :
    ∃ s', writePass writeAll eventDel k s = .inr s' ∧ BeforeEmpty s' := by
  obtain ⟨conn, sentLen, wantSendLen⟩ := s
  obtain ⟨⟨data, rest, hlist, hstart⟩, hempty⟩ := hs
  obtain ⟨rfl, rfl⟩ := Prod.mk.inj hstart
  dsimp only at hlist hempty
  by_cases hdata : data = []
  · subst hdata
    exact ⟨(conn, 0, 0), by simp [writePass, writeOnce, hlist, writeAll],
      ⟨[], rest, hlist, rfl⟩, hempty⟩
  · have hrest : [] ∈ rest := by
      rw [hlist, List.mem_cons] at hempty
      exact hempty.resolve_left (Ne.symm hdata)
    cases rest with
    | nil => cases hrest
    | cons data' rest =>
        have hnext := nextElement_cons { conn with sendList := data' :: rest } rfl eventDel
        refine ⟨({ conn with sendList := data' :: rest }, 0, data'.length), ?_,
          ⟨data', rest, rfl, rfl⟩, hrest⟩
        simp [writePass, writeOnce, hlist, writeAll, hdata, hnext]

theorem not_callbackEnds_of_empty {conn : NormalConn} (hempty : [] ∈ conn.sendList) :
    ¬conn.CallbackEnds := by
  intro hends
  obtain ⟨fuel, conn', hcallback⟩ := hends writeAll fairWrite_writeAll true
  cases hlist : conn.sendList with
  | nil => simp [hlist] at hempty
  | cons data rest =>
      rw [writeCallback, nextElement_cons conn hlist] at hcallback
      exact not_ends_of_inv (writePass_beforeEmpty true) 0
        ⟨⟨data, rest, hlist, rfl⟩, hempty⟩ conn' ⟨fuel, hcallback⟩

/-- **When `WriteCallback` ends.**  Whatever `write` does, as long as it gets on
with some bytes sooner or later, exactly when there is no empty element. -/
theorem callbackEnds_iff (conn : NormalConn) :
    conn.CallbackEnds ↔ [] ∉ conn.sendList :=
  ⟨fun hends hempty => not_callbackEnds_of_empty hempty hends, callbackEnds_of_nonempty⟩

end NormalConn

namespace SendRun

/-- No call of `Send` queues an empty element. -/
def QueuesData (s : SendRun) : SendAction → Prop
  | .send data eventNew eventAdd =>
      (s.conn.send data eventNew eventAdd).2 = true → data ≠ []
  | .writeCallback _ => True
  | .write _ _ => True

structure NoEmpty (s : SendRun) : Prop extends s.Inv where
  nonempty : [] ∉ s.conn.sendList
  more : ∀ sentLen wantSendLen, s.writing = some (sentLen, wantSendLen) →
    0 < wantSendLen

theorem NoEmpty.init : init.NoEmpty where
  toInv := Inv.init
  nonempty := List.not_mem_nil
  more := fun _ _ h => nomatch h

theorem write_eq_writeOnce {s s' : SendRun} {data : Bytes} {rest : List Bytes}
    {sentLen wantSendLen : ℕ} (hwriting : s.writing = some (sentLen, wantSendLen))
    (hlist : s.conn.sendList = data :: rest) {result : WriteResult} {eventDel : Bool}
    (hwrite : s.write data rest sentLen wantSendLen eventDel result = some s') :
    s.conn.writeOnce sentLen wantSendLen eventDel result = (s'.conn, s'.writing) ∧
      ∀ n, result = .wrote n → n ≤ wantSendLen := by
  cases result with
  | interrupted =>
      obtain rfl := Option.some.inj hwrite
      simp [NormalConn.writeOnce, hlist, hwriting]
  | again =>
      obtain rfl := Option.some.inj hwrite
      simp [NormalConn.writeOnce, hlist, keepRest]
  | failed =>
      obtain rfl := Option.some.inj hwrite
      simp [NormalConn.writeOnce, hlist, keepRest]
  | peerClosed =>
      obtain rfl := Option.some.inj hwrite
      simp [NormalConn.writeOnce, hlist]
  | wrote n =>
      simp only [SendRun.write] at hwrite
      by_cases hrefused : wantSendLen < n ∨ (s.reset = true ∧ 0 < n)
      · simp [hrefused] at hwrite
      rw [if_neg hrefused] at hwrite
      have hle : n ≤ wantSendLen := not_lt.mp (not_or.mp hrefused).1
      refine ⟨?_, fun m hm => WriteResult.wrote.inj hm ▸ hle⟩
      by_cases hzero : n = 0
      · rw [if_pos hzero] at hwrite
        obtain rfl := Option.some.inj hwrite
        simp [NormalConn.writeOnce, hlist, hzero, hwriting]
      rw [if_neg hzero] at hwrite
      by_cases hall : sentLen + n = data.length
      · rw [if_pos hall] at hwrite
        obtain rfl := Option.some.inj hwrite
        simp [NormalConn.writeOnce, hlist, hzero, hall, SendRun.nextElement]
      · rw [if_neg hall] at hwrite
        obtain rfl := Option.some.inj hwrite
        simp [NormalConn.writeOnce, hlist, hzero, hall]

theorem nextElement_nonempty {conn conn' : NormalConn} (eventDel : Bool)
    {writing : Option (ℕ × ℕ)} (hempty : [] ∉ conn.sendList)
    (hnext : conn.nextElement eventDel = (conn', writing)) :
    [] ∉ conn'.sendList ∧
      ∀ sentLen wantSendLen, writing = some (sentLen, wantSendLen) → 0 < wantSendLen := by
  cases hlist : conn.sendList with
  | nil =>
      unfold NormalConn.nextElement at hnext
      rw [hlist] at hnext
      cases eventDel <;> obtain ⟨rfl, rfl⟩ := Prod.mk.inj hnext <;> simp [hlist]
  | cons data rest =>
      rw [NormalConn.nextElement_cons conn hlist, Prod.mk.injEq] at hnext
      obtain ⟨rfl, rfl⟩ := hnext
      refine ⟨hempty, fun sentLen wantSendLen hstart => ?_⟩
      obtain ⟨rfl, rfl⟩ : 0 = sentLen ∧ data.length = wantSendLen := by simpa using hstart
      exact (NormalConn.atElement_start hlist hempty).more

theorem writeOnce_nonempty {conn conn' : NormalConn} {data : Bytes} {rest : List Bytes}
    {sentLen wantSendLen : ℕ} {result : WriteResult} {eventDel : Bool}
    {writing : Option (ℕ × ℕ)} (hlist : conn.sendList = data :: rest)
    (hlen : sentLen + wantSendLen = data.length) (hempty : [] ∉ conn.sendList)
    (hmore : 0 < wantSendLen) (hle : ∀ n, result = .wrote n → n ≤ wantSendLen)
    (honce : conn.writeOnce sentLen wantSendLen eventDel result = (conn', writing)) :
    [] ∉ conn'.sendList ∧
      ∀ sentLen' wantSendLen', writing = some (sentLen', wantSendLen') →
        0 < wantSendLen' := by
  have hrest : [] ∉ rest := fun hmem =>
    hempty (hlist ▸ List.mem_cons_of_mem data hmem)
  have hkept : [] ≠ (data.drop sentLen).take wantSendLen := by
    intro hnil
    have := congrArg List.length hnil
    simp at this
    omega
  simp only [NormalConn.writeOnce, hlist] at honce
  cases result with
  | interrupted =>
      obtain ⟨rfl, rfl⟩ := Prod.mk.inj honce
      exact ⟨hempty, fun _ _ h => by simp_all⟩
  | again =>
      obtain ⟨rfl, rfl⟩ := Prod.mk.inj honce
      exact ⟨by simp [hkept, hrest], nofun⟩
  | failed =>
      obtain ⟨rfl, rfl⟩ := Prod.mk.inj honce
      exact ⟨by simp [hkept, hrest], nofun⟩
  | peerClosed =>
      obtain ⟨rfl, rfl⟩ := Prod.mk.inj honce
      exact ⟨hempty, nofun⟩
  | wrote n =>
      have hn := hle n rfl
      dsimp only at honce
      split_ifs at honce with hzero hall
      · obtain ⟨rfl, rfl⟩ := Prod.mk.inj honce
        exact ⟨hempty, fun _ _ h => by simp_all⟩
      · exact nextElement_nonempty eventDel hrest honce
      · obtain ⟨rfl, rfl⟩ := Prod.mk.inj honce
        refine ⟨hempty, fun sentLen' wantSendLen' h => ?_⟩
        obtain ⟨-, rfl⟩ : sentLen + n = sentLen' ∧ wantSendLen - n = wantSendLen' := by
          simpa using h
        omega

theorem NoEmpty.step {s s' : SendRun} {a : SendAction} (h : s.NoEmpty)
    (hqueues : s.QueuesData a) (hstep : s.step a = some s') : s'.NoEmpty := by
  have hinv := h.toInv.step hstep
  cases a with
  | send data eventNew eventAdd =>
      cases hwriting : s.writing with
      | some element => simp [SendRun.step, hwriting] at hstep
      | none =>
          simp only [SendRun.step, hwriting, Option.some.injEq] at hstep
          obtain rfl := hstep
          rcases send_cases s.conn data eventNew eventAdd h.queued with
            hpush | ⟨conn', hfail, -, hempty', -⟩
          · have hdata : data ≠ [] := hqueues (by rw [hpush])
            exact ⟨hinv, by simp [hpush, NormalConn.pushBack, h.nonempty, hdata.symm],
              fun _ _ hnone => by simp at hnone⟩
          · exact ⟨hinv, by simp [hfail, hempty'],
              fun _ _ hnone => by simp at hnone⟩
  | writeCallback eventDel =>
      obtain ⟨-, hstep⟩ := Option.ite_none_right_eq_some.mp hstep
      obtain rfl := Option.some.inj hstep
      obtain ⟨hnonempty, hmore⟩ := nextElement_nonempty eventDel h.nonempty rfl
      exact ⟨hinv, hnonempty, hmore⟩
  | write result eventDel =>
      cases hwriting : s.writing with
      | none => simp [SendRun.step, hwriting] at hstep
      | some element =>
          obtain ⟨sentLen, wantSendLen⟩ := element
          obtain ⟨data, rest, hlist, hlen⟩ := h.element _ _ hwriting
          simp only [SendRun.step, hwriting, hlist] at hstep
          obtain ⟨honce, hle⟩ := write_eq_writeOnce hwriting hlist hstep
          obtain ⟨hnonempty, hmore⟩ := writeOnce_nonempty hlist hlen h.nonempty
            (h.more _ _ hwriting) hle honce
          exact ⟨hinv, hnonempty, hmore⟩

/-- **Where `WriteCallback` ends.**  In a run of `Send`s and callbacks, and in every
state between them, a call of `WriteCallback` ends for every fair `write`: exactly
when no `Send` has queued an empty element. -/
theorem callbackEnds_iff_queuesData (actions : List SendAction) :
    Along SendRun.step (fun s => s.writing = none → s.conn.CallbackEnds)
        (fun _ _ _ => True) init actions ↔
      Guarded SendRun.step QueuesData init actions := by
  have hgood : ∀ s : SendRun, s.NoEmpty → s.writing = none → s.conn.CallbackEnds :=
    fun s h _ => NormalConn.callbackEnds_of_nonempty h.nonempty
  have hkeep : ∀ (s : SendRun) a s', s.NoEmpty → s.QueuesData a → s.step a = some s' →
      s'.NoEmpty ∧ True := fun s a s' h hqueues hstep => ⟨h.step hqueues hstep, trivial⟩
  refine along_iff_guarded hgood hkeep (fun s a s' h hstep _ hends => ?_) actions
    NoEmpty.init
  cases a with
  | writeCallback => trivial
  | write => trivial
  | send data eventNew eventAdd =>
      intro hqueued hdata
      cases hwriting : s.writing with
      | some element => simp [SendRun.step, hwriting] at hstep
      | none =>
          simp only [SendRun.step, hwriting, Option.some.injEq] at hstep
          obtain rfl := hstep
          have hpush : s.conn.send data eventNew eventAdd =
              (s.conn.pushBack data, true) := by
            rcases send_cases s.conn data eventNew eventAdd h.queued with
              hpush | ⟨conn', hfail, -⟩
            · exact hpush
            · simp [hfail] at hqueued
          refine NormalConn.not_callbackEnds_of_empty ?_ (hends rfl)
          rw [hpush, hdata]
          simp [NormalConn.pushBack]

/-- One `Send` without data, and the next callback spins. -/
theorem callback_spins : ¬∀ actions : List SendAction,
    Along SendRun.step (fun s => s.writing = none → s.conn.CallbackEnds)
      (fun _ _ _ => True) init actions := by
  intro hall
  have hends := (hall [.send [] true true]).last (t := { init with
    conn := ⟨some true, [[]]⟩ }) rfl rfl
  exact NormalConn.not_callbackEnds_of_empty (List.mem_singleton_self []) hends

end SendRun

end CommonComponent
