import CommonComponent.ProtoTcpClientFrames

/-!
# The connection of a client

`Connection` is what `EventCallback`, `SetConnected`, `Connect` and the connect
timer decide about a client; the messages, the table and the cache only follow it
(`eventCallback_connection` and its neighbours).  Two results are about all runs
of these, with several connection attempts open at a time: which runs leave a
connected client alone until its own bufferevent reports an end, and in which runs
a client that should reconnect goes on trying.
-/

namespace CommonComponent

structure Connection where
  connected : Bool
  bufeventSet : Finset ℕ
  bufEvent : Option ℕ
  reconnectFailedCount : ℤ
  connectTimer : Bool
  removed : Bool

namespace Connection

variable (ctx : ClientCenterCtx) (setTimer : Bool)

def remove (c : Connection) : Connection :=
  { c with bufeventSet := ∅, connectTimer := false, removed := true }

def goUp (c : Connection) (bufEvent : Option ℕ) : Connection :=
  { c with
    connected := true, bufEvent := bufEvent, reconnectFailedCount := 0
    connectTimer := false }

def goDown (c : Connection) : Connection :=
  { c with
    connected := false, bufEvent := none
    connectTimer := c.connectTimer || setTimer }

def countFailure (c : Connection) : Connection :=
  let count := c.reconnectFailedCount + 1
  let c := { c with reconnectFailedCount := count }
  if ctx.reconnectLimit = count then c.remove else c

/-- `bufEvent` is connected. -/
def opened (c : Connection) (bufEvent : ℕ) : Connection :=
  if c.connected then c else c.goUp (some bufEvent)

/-- `bufEvent` is at its end. -/
def closed (c : Connection) (bufEvent : ℕ) : Connection :=
  let c := { c with bufeventSet := c.bufeventSet.erase bufEvent }
  if ctx.NoReconnect then c.remove
  else if c.connected then c.goDown setTimer
  else c.countFailure ctx

end Connection

namespace ClientState

variable {ctx : ClientCenterCtx} {env : CallEnv}

def connection (s : ClientState) : Connection where
  connected := s.client.connected
  bufeventSet := s.client.bufeventSet
  bufEvent := s.client.bufEvent
  reconnectFailedCount := s.client.reconnectFailedCount
  connectTimer := s.connectTimer
  removed := s.removed

theorem SameConnection.connection {s t : ClientState} (h : s.SameConnection t) :
    t.connection = s.connection := by
  unfold ClientState.connection
  rw [h.connected, h.bufeventSet, h.bufEvent, h.reconnectFailedCount,
    h.connectTimer, h.removed]

variable (env) in
theorem sendCacheMsgs_shape (s : ClientState) (transIds : List TransID) :
    ∃ adds map, (sendCacheMsgs env s transIds).1 =
      { s with adds := adds, client := { s.client with cacheMsgMap := map } } := by
  induction transIds generalizing s with
  | nil => exact ⟨_, _, rfl⟩
  | cons transId later ih =>
      unfold sendCacheMsgs
      split
      · exact ih s
      next cacheMsg hcached =>
        obtain ⟨adds, hadds⟩ :=
          innerSend_adds env s cacheMsg.msgBody cacheMsg.totalRetries.toNat
        simp only [hadds]
        split
        · obtain ⟨adds', map, hlater⟩ := ih { s with
            adds := adds
            client := { s.client with
              cacheMsgMap := Function.update s.client.cacheMsgMap transId none } }
          exact ⟨adds', map, hlater⟩
        · obtain ⟨adds', map, hlater⟩ := ih { s with adds := adds }
          exact ⟨adds', map, hlater⟩

variable (env) in
theorem sendCacheMsg_shape (s : ClientState) :
    ∃ adds map list, s.sendCacheMsg env = { s with
      adds := adds
      client := { s.client with
        cacheMsgMap := map, cacheMsgTransIDList := list } } := by
  obtain ⟨adds, map, hwalk⟩ :=
    sendCacheMsgs_shape env s s.client.cacheMsgTransIDList
  unfold sendCacheMsg
  simp only [hwalk]
  exact ⟨adds, map, _, rfl⟩

@[simp] theorem sendCacheMsg_connection (s : ClientState) :
    (s.sendCacheMsg env).connection = s.connection := by
  obtain ⟨adds, map, list, hsent⟩ := sendCacheMsg_shape env s
  rw [hsent]
  rfl

@[simp] theorem notifyPeer_connection (s : ClientState)
    (event : TransCenter.PeerEvent) :
    (s.notifyPeer env event).connection = s.connection := rfl

@[simp] theorem stopConnectTimer_connection (s : ClientState) :
    s.stopConnectTimer.connection = { s.connection with connectTimer := false } :=
  rfl

theorem startConnectTimer_connection (s : ClientState)
    (hreconnect : ¬ctx.NoReconnect) :
    (s.startConnectTimer ctx env).connection = { s.connection with
      connectTimer := s.connectTimer || env.setTimer } := by
  unfold startConnectTimer
  rw [if_neg hreconnect]
  split
  next htimer => simp [connection, htimer]
  next htimer => simp [connection, htimer]

theorem setConnected_true_connection (s : ClientState) (bufEvent : ℕ) :
    (s.setConnected ctx env true (some bufEvent)).connection =
      s.connection.opened bufEvent := by
  unfold setConnected Connection.opened
  simp only [Bool.true_eq_false, false_and, if_false]
  cases hconnected : s.client.connected with
  | true => simp [connection, hconnected]
  | false =>
      simp only [Bool.false_eq_true, if_false, if_true, notifyPeer_connection,
        sendCacheMsg_connection, stopConnectTimer_connection]
      simp [connection, hconnected, Connection.goUp]

theorem setConnected_false_connection (s : ClientState) (bufEvent : ℕ) :
    ({ s with client := { s.client with
        bufeventSet := s.client.bufeventSet.erase bufEvent } }.setConnected ctx env
          false none).connection =
      s.connection.closed ctx env.setTimer bufEvent := by
  unfold setConnected Connection.closed
  by_cases hreconnect : ctx.NoReconnect
  · simp [hreconnect, removeClient, stopConnectTimer, connection,
      Connection.remove]
  · cases hconnected : s.client.connected with
    | false =>
        simp only [hreconnect, and_false, if_false, Bool.false_eq_true, if_true,
          connection, hconnected, Connection.countFailure]
        split <;> rfl
    | true =>
        simp only [hreconnect, and_false, if_false, Bool.true_eq_false,
          Bool.false_eq_true, startConnectTimer_connection _ hreconnect]
        simp [connection, hconnected, notifyPeer, Connection.goDown]

/-- **The connection follows its events**, whatever the messages do. -/
theorem eventCallback_connection (s : ClientState) (bufEvent : ℕ)
    (events : BevEvents) (inputLen : ℕ) :
    (s.eventCallback ctx env bufEvent events inputLen).connection =
      if events.connected then s.connection.opened bufEvent
      else if Closing events inputLen then
        s.connection.closed ctx env.setTimer bufEvent
      else s.connection := by
  unfold eventCallback
  split
  · exact setConnected_true_connection s bufEvent
  · split
    · exact setConnected_false_connection s bufEvent
    · rfl

theorem readCallback_connection {s t : ClientState} {chunk : Bytes}
    (h : s.readCallback ctx env chunk = some t) : t.connection = s.connection := by
  obtain ⟨t', hcall, hreads⟩ := readCallback_reads ctx env s chunk
  rw [hcall, Option.some.injEq] at h
  subst h
  rcases hreads with ⟨-, rfl⟩ | ⟨-, hreads⟩
  · rfl
  · exact hreads.sameConnection.connection

end ClientState

/-! ## Runs of a client -/

/-- What comes to a client that is in its client center.  `table` is the rest of
the process at work on the shared table. -/
inductive ClientAction
  | onTimer (bufEvent : Option ℕ)
  | event (bufEvent : ℕ) (events : BevEvents) (inputLen : ℕ) (env : CallEnv)
  | read (bufEvent : ℕ) (chunk : Bytes) (env : CallEnv)
  | send (msgHead : MsgHead) (msgBody : Bytes) (asyncCtx : Option AsyncCtx)
      (env : CallEnv)
  | addNfySink (sink : ℕ)
  | removeNfySink (sink : ℕ)
  | table (tc : TransCenter)

/-- `succeeded` holds the bufferevents that have connected and not reported an end
since, `attempt` the number of the attempt a bufferevent was made for, and `owners`
the attempt that each byte of the receive buffer has come through. -/
structure ClientRun where
  state : ClientState
  succeeded : Finset ℕ
  everConnected : Bool
  attempt : ℕ → ℕ
  attempts : ℕ
  owners : List ℕ

namespace ClientRun

def activated (peer : Peer) (tc : TransCenter) (bufEvent : ℕ) : ClientRun where
  state := .activate peer tc bufEvent
  succeeded := ∅
  everConnected := false
  attempt := fun _ => 0
  attempts := 1
  owners := []

/-- The owners of what a call leaves of the bytes in front of it. -/
def ownersOfLeft (owners : List ℕ) (left : Bytes) : List ℕ :=
  owners.drop (owners.length - left.length)

/-- A removed client takes no more steps; events and data come from bufferevents
that have not been freed, and `Connect` makes one that is not there yet. -/
def step (ctx : ClientCenterCtx) (s : ClientRun) (a : ClientAction) :
    Option ClientRun :=
  if s.state.removed then none
  else
    match a with
    | .onTimer bufEvent =>
        if s.state.connectTimer ∧
            ∀ b ∈ bufEvent, b ∉ s.state.client.bufeventSet then
          some { s with
            state := s.state.onTimer bufEvent
            attempt := bufEvent.elim s.attempt fun b =>
              Function.update s.attempt b s.attempts
            attempts := s.attempts + 1 }
        else none
    | .event bufEvent events inputLen env =>
        if bufEvent ∈ s.state.client.bufeventSet then
          some { s with
            state := s.state.eventCallback ctx env bufEvent events inputLen
            succeeded :=
              if events.connected then insert bufEvent s.succeeded
              else if ClientState.Closing events inputLen then
                s.succeeded.erase bufEvent
              else s.succeeded
            everConnected := s.everConnected || events.connected }
        else none
    | .read bufEvent chunk env =>
        if bufEvent ∈ s.state.client.bufeventSet then
          (s.state.readCallback ctx env chunk).map fun t =>
            { s with
              state := t
              owners := ownersOfLeft
                (s.owners ++ List.replicate chunk.length (s.attempt bufEvent))
                t.client.recvedData }
        else none
    | .send msgHead msgBody asyncCtx env =>
        some { s with state := (s.state.send ctx env msgHead msgBody asyncCtx).2 }
    | .addNfySink sink => some { s with state := s.state.addNfySink sink }
    | .removeNfySink sink => some { s with state := s.state.removeNfySink sink }
    | .table tc => some { s with state := { s.state with tc := tc } }

variable {ctx : ClientCenterCtx}

/-- **What a step does to the connection.** -/
theorem step_connection {s s' : ClientRun} {a : ClientAction}
    (h : s.step ctx a = some s') :
    s.state.removed = false ∧
      match a with
      | .onTimer bufEvent =>
          s.state.connectTimer = true ∧
            s'.state.connection = { s.state.connection with
              bufeventSet := bufEvent.elim s.state.client.bufeventSet fun b =>
                insert b s.state.client.bufeventSet } ∧
            s'.succeeded = s.succeeded ∧ s'.everConnected = s.everConnected
      | .event bufEvent events inputLen env =>
          bufEvent ∈ s.state.client.bufeventSet ∧
            s'.everConnected = (s.everConnected || events.connected) ∧
            if events.connected then
              s'.state.connection = s.state.connection.opened bufEvent ∧
                s'.succeeded = insert bufEvent s.succeeded
            else if ClientState.Closing events inputLen then
              s'.state.connection =
                  s.state.connection.closed ctx env.setTimer bufEvent ∧
                s'.succeeded = s.succeeded.erase bufEvent
            else
              s'.state.connection = s.state.connection ∧
                s'.succeeded = s.succeeded
      | _ =>
          s'.state.connection = s.state.connection ∧
            s'.succeeded = s.succeeded ∧ s'.everConnected = s.everConnected := by
  unfold step at h
  cases hremoved : s.state.removed with
  | true => simp [hremoved] at h
  | false =>
      rw [hremoved, if_neg Bool.false_ne_true] at h
      refine ⟨rfl, ?_⟩
      cases a with
      | onTimer bufEvent =>
          simp only at h ⊢
          split at h
          next henabled =>
            cases h
            refine ⟨henabled.1, ?_, rfl, rfl⟩
            cases bufEvent with
            | none => rfl
            | some b => rfl
          next => cases h
      | event bufEvent events inputLen env =>
          simp only at h ⊢
          split at h
          next hmem =>
            cases h
            refine ⟨hmem, rfl, ?_⟩
            rw [ClientState.eventCallback_connection]
            split
            · exact ⟨rfl, rfl⟩
            · split
              · exact ⟨rfl, rfl⟩
              · exact ⟨rfl, rfl⟩
          next => cases h
      | read bufEvent chunk env =>
          simp only at h ⊢
          split at h
          next =>
            rw [Option.map_eq_some_iff] at h
            obtain ⟨t, hcall, rfl⟩ := h
            exact ⟨ClientState.readCallback_connection hcall, rfl, rfl⟩
          next => cases h
      | send msgHead msgBody asyncCtx env =>
          cases h
          have hsame := ClientState.send_sameConnection ctx env s.state msgHead
            msgBody asyncCtx
          exact ⟨hsame.connection, rfl, rfl⟩
      | addNfySink sink =>
          cases h
          refine ⟨?_, rfl, rfl⟩
          simp only [ClientState.addNfySink]
          split <;> rfl
      | removeNfySink sink =>
          cases h
          exact ⟨rfl, rfl, rfl⟩
      | table tc =>
          cases h
          exact ⟨rfl, rfl, rfl⟩

end ClientRun

/-! ## Whose events count -/

/-- A connected client's `buf_event_` is a live bufferevent that has succeeded, and
a client that is not connected has none. -/
structure Connection.Tracks (c : Connection) (succeeded : Finset ℕ) : Prop where
  up : c.removed = false → c.connected = true →
    ∃ b, c.bufEvent = some b ∧ b ∈ c.bufeventSet ∧ b ∈ succeeded
  down : c.connected = false → c.bufEvent = none

namespace Connection

variable {ctx : ClientCenterCtx} {setTimer : Bool} {c : Connection}
  {succeeded : Finset ℕ}

theorem Tracks.grow (h : c.Tracks succeeded) {bufeventSet : Finset ℕ}
    (hsub : c.bufeventSet ⊆ bufeventSet) :
    ({ c with bufeventSet := bufeventSet } : Connection).Tracks succeeded where
  up := by
    intro hremoved hconnected
    obtain ⟨b, hb, hmem, hsucceeded⟩ := h.up hremoved hconnected
    exact ⟨b, hb, hsub hmem, hsucceeded⟩
  down := h.down

theorem Tracks.opened (h : c.Tracks succeeded) {bufEvent : ℕ}
    (hmem : bufEvent ∈ c.bufeventSet) :
    (c.opened bufEvent).Tracks (insert bufEvent succeeded) := by
  unfold Connection.opened
  split
  next =>
    constructor
    · intro hremoved hconnected
      obtain ⟨b, hb, hlive, hsucceeded⟩ := h.up hremoved hconnected
      exact ⟨b, hb, hlive, Finset.mem_insert_of_mem hsucceeded⟩
    · exact h.down
  next =>
    constructor
    · intro _ _
      exact ⟨bufEvent, rfl, hmem, Finset.mem_insert_self _ _⟩
    · intro hdown
      cases hdown

theorem Tracks.closed (h : c.Tracks succeeded) (bufEvent : ℕ) :
    (c.closed ctx setTimer bufEvent).Tracks (succeeded.erase bufEvent) := by
  unfold Connection.closed
  simp only
  split
  next =>
    constructor
    · intro hremoved
      cases hremoved
    · exact h.down
  next =>
    split
    next =>
      constructor
      · intro _ hconnected
        cases hconnected
      · intro _
        rfl
    next hconnected =>
      unfold countFailure
      simp only
      split
      · constructor
        · intro hremoved
          cases hremoved
        · exact h.down
      · constructor
        · intro _ hup
          exact (hconnected hup).elim
        · exact h.down

theorem closed_not_kept (ctx : ClientCenterCtx) (setTimer : Bool)
    (c : Connection) (bufEvent : ℕ) (hup : c.connected = true) :
    ¬((c.closed ctx setTimer bufEvent).connected = true ∧
      (c.closed ctx setTimer bufEvent).removed = false) := by
  unfold Connection.closed
  simp only [hup, if_true]
  split
  · simp [remove]
  · simp [goDown]

end Connection

namespace ClientRun

variable {ctx : ClientCenterCtx}

/-- `connected_` says whether `buf_event_` is a live member of `bufevent_set_` that
has connected and not reported an end since. -/
def ConnectedRight (s : ClientRun) : Prop :=
  s.state.removed = false →
    (s.state.client.connected = true ↔
      ∃ b, s.state.client.bufEvent = some b ∧ b ∈ s.state.client.bufeventSet ∧
        b ∈ s.succeeded)

/-- A connected client stays as it is at the events of other bufferevents. -/
def OthersIgnored (s : ClientRun) (a : ClientAction) (s' : ClientRun) : Prop :=
  match a with
  | .event bufEvent _ _ _ =>
      s.state.client.connected = true → s.state.client.bufEvent ≠ some bufEvent →
        s'.state.client.connected = true ∧ s'.state.removed = false ∧
          s'.state.client.bufEvent = s.state.client.bufEvent
  | _ => True

/-- While the client is connected, no other bufferevent reports an end. -/
def OthersOpen (s : ClientRun) (a : ClientAction) : Prop :=
  match a with
  | .event bufEvent events inputLen _ =>
      s.state.client.connected = true → s.state.client.bufEvent ≠ some bufEvent →
        ¬ClientState.Closing events inputLen
  | _ => True

theorem step_tracks {s s' : ClientRun} {a : ClientAction}
    (h : s.state.connection.Tracks s.succeeded) (hstep : s.step ctx a = some s') :
    s'.state.connection.Tracks s'.succeeded := by
  obtain ⟨-, hspec⟩ := step_connection hstep
  cases a with
  | onTimer bufEvent =>
      obtain ⟨-, hconn, hsucceeded, -⟩ := hspec
      rw [hconn, hsucceeded]
      apply h.grow
      cases bufEvent with
      | none => exact subset_rfl
      | some b => exact Finset.subset_insert _ _
  | event bufEvent events inputLen env =>
      obtain ⟨hmem, -, hspec⟩ := hspec
      split at hspec
      · rw [hspec.1, hspec.2]
        exact h.opened hmem
      · split at hspec
        · rw [hspec.1, hspec.2]
          exact h.closed bufEvent
        · rw [hspec.1, hspec.2]
          exact h
  | read bufEvent chunk env => rw [hspec.1, hspec.2.1]; exact h
  | send msgHead msgBody asyncCtx env => rw [hspec.1, hspec.2.1]; exact h
  | addNfySink sink => rw [hspec.1, hspec.2.1]; exact h
  | removeNfySink sink => rw [hspec.1, hspec.2.1]; exact h
  | table tc => rw [hspec.1, hspec.2.1]; exact h

theorem activated_tracks (peer : Peer) (tc : TransCenter) (bufEvent : ℕ) :
    (activated peer tc bufEvent).state.connection.Tracks
      (activated peer tc bufEvent).succeeded where
  up := by
    intro _ hconnected
    cases hconnected
  down := by
    intro _
    rfl

theorem run_tracks {peer : Peer} {tc : TransCenter} {bufEvent : ℕ}
    {as : List ClientAction} {s : ClientRun}
    (hrun : LabelledRun.run (step ctx) (activated peer tc bufEvent) as = some s) :
    s.state.connection.Tracks s.succeeded := by
  have hkeep : ∀ (s : ClientRun) (a : ClientAction) (s' : ClientRun),
      s.state.connection.Tracks s.succeeded → s.step ctx a = some s' →
        s'.state.connection.Tracks s'.succeeded :=
    fun s a s' h hstep => step_tracks h hstep
  exact LabelledRun.inv_of_run hkeep (activated_tracks peer tc bufEvent) hrun

theorem connectedRight_of_tracks {s : ClientRun}
    (h : s.state.connection.Tracks s.succeeded) : s.ConnectedRight := by
  intro hremoved
  constructor
  · exact h.up hremoved
  · rintro ⟨b, hb, -⟩
    cases hconnected : s.state.client.connected with
    | true => rfl
    | false =>
        have hnone : s.state.client.bufEvent = none := h.down hconnected
        rw [hnone] at hb
        cases hb

theorem othersIgnored_iff {s s' : ClientRun} {a : ClientAction}
    (hstep : s.step ctx a = some s') : s.OthersIgnored a s' ↔ s.OthersOpen a := by
  obtain ⟨hremoved, hspec⟩ := step_connection hstep
  cases a with
  | event bufEvent events inputLen env =>
      obtain ⟨-, -, hspec⟩ := hspec
      unfold OthersIgnored OthersOpen
      apply forall_congr'
      intro hup
      apply forall_congr'
      intro _
      have hup' : s.state.connection.connected = true := hup
      have hremoved' : s.state.connection.removed = false := hremoved
      change s'.state.connection.connected = true ∧
        s'.state.connection.removed = false ∧
        s'.state.connection.bufEvent = s.state.connection.bufEvent ↔ _
      by_cases hopened : events.connected = true
      · rw [if_pos hopened] at hspec
        have hsame : s'.state.connection = s.state.connection := by
          rw [hspec.1, Connection.opened, if_pos hup']
        rw [hsame]
        simp [hup', hremoved', ClientState.Closing, hopened]
      · rw [if_neg hopened] at hspec
        by_cases hclosing : ClientState.Closing events inputLen
        · rw [if_pos hclosing] at hspec
          have hlost := Connection.closed_not_kept ctx env.setTimer
            s.state.connection bufEvent hup'
          rw [hspec.1]
          constructor
          · rintro ⟨hkept, hthere, -⟩
            exact (hlost ⟨hkept, hthere⟩).elim
          · intro hopen
            exact (hopen hclosing).elim
        · rw [if_neg hclosing] at hspec
          rw [hspec.1]
          simp [hup', hremoved', hclosing]
  | onTimer bufEvent => exact Iff.rfl
  | read bufEvent chunk env => exact Iff.rfl
  | send msgHead msgBody asyncCtx env => exact Iff.rfl
  | addNfySink sink => exact Iff.rfl
  | removeNfySink sink => exact Iff.rfl
  | table tc => exact Iff.rfl

/-- **When only its own bufferevent can disconnect a client.**  What `connected_`
says is right in every run; events of other bufferevents leave a connected client
alone exactly in the runs in which none of them is an end. -/
theorem run_othersIgnored_iff (ctx : ClientCenterCtx) (peer : Peer)
    (tc : TransCenter) (bufEvent : ℕ) (as : List ClientAction) :
    LabelledRun.Along (step ctx) ConnectedRight (fun _ _ _ => True)
        (activated peer tc bufEvent) as ∧
      (LabelledRun.Along (step ctx) ConnectedRight OthersIgnored
          (activated peer tc bufEvent) as ↔
        LabelledRun.Guarded (step ctx) OthersOpen (activated peer tc bufEvent) as) := by
  have hstart := activated_tracks peer tc bufEvent
  have hgood : ∀ s : ClientRun, s.state.connection.Tracks s.succeeded →
      s.ConnectedRight := fun s => connectedRight_of_tracks
  constructor
  · exact LabelledRun.along_of_inv hgood
      (fun s a s' h hstep => ⟨step_tracks h hstep, trivial⟩) as hstart
  · refine LabelledRun.along_iff_guarded hgood ?_ ?_ as hstart
    · intro s a s' h hopen hstep
      exact ⟨step_tracks h hstep, (othersIgnored_iff hstep).mpr hopen⟩
    · intro s a s' _ hstep hignored _
      exact (othersIgnored_iff hstep).mp hignored

def connectedEvent : BevEvents := ⟨true, false, false, false⟩

def eofEvent : BevEvents := ⟨false, true, false, false⟩

def errorEvent : BevEvents := ⟨false, false, true, false⟩

/-- The failure of a superseded attempt disconnects a client that is connected. -/
theorem run_superseded_failure :
    ¬∀ as, LabelledRun.Along (step plainCtx) ConnectedRight OthersIgnored
      (activated peerB .empty 1) as := by
  intro h
  let before : List ClientAction :=
    [.event 1 connectedEvent 0 quietEnv, .event 1 eofEvent 0 quietEnv,
      .onTimer (some 2), .onTimer (some 3), .event 2 connectedEvent 0 quietEnv]
  obtain ⟨s, hs⟩ : ∃ s, LabelledRun.run (step plainCtx) (activated peerB .empty 1)
      before = some s := Option.isSome_iff_exists.mp (by decide +kernel)
  have hup : (LabelledRun.run (step plainCtx) (activated peerB .empty 1)
      before).map (fun s => (s.state.client.connected, s.state.client.bufEvent)) =
        some (true, some 2) := by decide +kernel
  have hlost : (LabelledRun.run (step plainCtx) (activated peerB .empty 1)
      before).bind (fun s => (s.step plainCtx
        (.event 3 errorEvent 0 quietEnv)).map (·.state.client.connected)) =
          some false := by decide +kernel
  rw [hs, Option.map_some, Option.some.injEq, Prod.mk.injEq] at hup
  rw [hs, Option.bind_some] at hlost
  cases hstep : s.step plainCtx (.event 3 errorEvent 0 quietEnv) with
  | none =>
      rw [hstep] at hlost
      cases hlost
  | some s' =>
      rw [hstep, Option.map_some, Option.some.injEq] at hlost
      have hignored := (((h (before ++ [.event 3 errorEvent 0 quietEnv])).of_append
        hs).2 s' hstep).1
      have hother : s.state.client.bufEvent ≠ some 3 := by
        rw [hup.2]
        decide
      rw [(hignored hup.1 hother).1] at hlost
      cases hlost

end ClientRun

/-! ## A client that goes on trying -/

namespace Connection

variable {ctx : ClientCenterCtx} {setTimer : Bool} {c : Connection}
  {succeeded : Finset ℕ} {everConnected : Bool}

/-- Where the next attempt of a client comes from: before it has been connected,
its only attempt is still open; afterwards it is connected or its timer runs. -/
structure Persists (ctx : ClientCenterCtx) (c : Connection)
    (succeeded : Finset ℕ) (everConnected : Bool) : Prop where
  first : everConnected = false → c.removed = false →
    c.connected = false ∧ c.connectTimer = false ∧ c.reconnectFailedCount = 0 ∧
      succeeded = ∅ ∧ ∃ b, c.bufeventSet = {b}
  later : everConnected = true → c.removed = false →
    c.connected = true ∨ c.connectTimer = true
  gone : c.removed = true → c.reconnectFailedCount = ctx.reconnectLimit

theorem Persists.grow (h : c.Persists ctx succeeded everConnected)
    (htimer : c.connectTimer = true) (hthere : c.removed = false)
    (bufeventSet : Finset ℕ) :
    ({ c with bufeventSet := bufeventSet } : Connection).Persists ctx succeeded
      everConnected where
  first := by
    intro hfirst _
    have hstopped := (h.first hfirst hthere).2.1
    rw [hstopped] at htimer
    cases htimer
  later := h.later
  gone := h.gone

theorem Persists.opened (hthere : c.removed = false) (bufEvent : ℕ) :
    (c.opened bufEvent).Persists ctx (insert bufEvent succeeded) true where
  first := by
    intro hfirst
    cases hfirst
  later := by
    intro _ _
    left
    unfold Connection.opened
    split
    next hconnected => exact hconnected
    next => rfl
  gone := by
    have hstays : (c.opened bufEvent).removed = false := by
      unfold Connection.opened
      split <;> exact hthere
    intro hremoved
    rw [hstays] at hremoved
    cases hremoved

theorem countFailure_gone (c : Connection) (hthere : c.removed = false)
    (hremoved : (c.countFailure ctx).removed = true) :
    (c.countFailure ctx).reconnectFailedCount = ctx.reconnectLimit := by
  unfold countFailure at hremoved ⊢
  simp only at hremoved ⊢
  split
  next hlimit => exact hlimit.symm
  next hlimit =>
    rw [if_neg hlimit, hthere] at hremoved
    cases hremoved

theorem Persists.closed (hreconnect : ¬ctx.NoReconnect)
    (h : c.Persists ctx succeeded everConnected) (hthere : c.removed = false)
    {bufEvent : ℕ} (hfirst : everConnected = false → ctx.reconnectLimit = 1) :
    (c.closed ctx true bufEvent).Persists ctx (succeeded.erase bufEvent)
      everConnected := by
  unfold Connection.closed
  simp only [if_neg hreconnect]
  split
  next hconnected =>
    have hever : everConnected = true := by
      cases everConnected with
      | true => rfl
      | false =>
          rw [(h.first rfl hthere).1] at hconnected
          cases hconnected
    constructor
    · intro hnever
      rw [hever] at hnever
      cases hnever
    · intro _ _
      right
      simp [goDown]
    · intro hremoved
      have hstays : c.removed = true := hremoved
      rw [hthere] at hstays
      cases hstays
  next hconnected =>
    constructor
    · intro hnever hstays
      obtain ⟨-, -, hcount, -, -⟩ := h.first hnever hthere
      unfold countFailure at hstays
      simp [hcount, hfirst hnever, remove] at hstays
    · intro hever hstays
      right
      have htimer : c.connectTimer = true := (h.later hever hthere).resolve_left hconnected
      unfold countFailure at hstays ⊢
      simp only at hstays ⊢
      split
      next hlimit =>
        rw [if_pos hlimit] at hstays
        cases hstays
      next => exact htimer
    · exact countFailure_gone _ hthere

end Connection

namespace ClientRun

variable {ctx : ClientCenterCtx}

/-- The client is connected, or an attempt of it is undecided, or its connect timer
is armed, or it has been removed after the configured number of failures. -/
def Trying (ctx : ClientCenterCtx) (s : ClientRun) : Prop :=
  s.state.client.connected = true ∨
    (∃ b ∈ s.state.client.bufeventSet, b ∉ s.succeeded) ∨
    s.state.connectTimer = true ∨
    s.state.removed = true ∧
      s.state.client.reconnectFailedCount = ctx.reconnectLimit

/-- Until the client has been connected no attempt fails, unless one failure is
enough to remove it. -/
def FirstSucceeds (ctx : ClientCenterCtx) (s : ClientRun) (a : ClientAction) :
    Prop :=
  match a with
  | .event _ events inputLen _ =>
      s.everConnected = false → ClientState.Closing events inputLen →
        ctx.reconnectLimit = 1
  | _ => True

instance (s : ClientRun) (a : ClientAction) : Decidable (FirstSucceeds ctx s a) :=
  match a with
  | .event _ events inputLen _ =>
      inferInstanceAs (Decidable (s.everConnected = false →
        ClientState.Closing events inputLen → ctx.reconnectLimit = 1))
  | .onTimer _ | .read _ _ _ | .send _ _ _ _ | .addNfySink _ | .removeNfySink _
  | .table _ => .isTrue trivial

def SetsTimer (a : ClientAction) : Prop :=
  match a with
  | .event _ _ _ env => env.setTimer = true
  | _ => True

theorem step_persists {s s' : ClientRun} {a : ClientAction}
    (hreconnect : ¬ctx.NoReconnect) (hset : SetsTimer a)
    (h : s.state.connection.Persists ctx s.succeeded s.everConnected)
    (hfirst : FirstSucceeds ctx s a) (hstep : s.step ctx a = some s') :
    s'.state.connection.Persists ctx s'.succeeded s'.everConnected := by
  obtain ⟨hthere, hspec⟩ := step_connection hstep
  cases a with
  | onTimer bufEvent =>
      obtain ⟨htimer, hconn, hsucceeded, hever⟩ := hspec
      rw [hconn, hsucceeded, hever]
      exact h.grow htimer hthere _
  | event bufEvent events inputLen env =>
      obtain ⟨hmem, hever, hspec⟩ := hspec
      by_cases hopened : events.connected = true
      · rw [if_pos hopened] at hspec
        rw [hspec.1, hspec.2, hever, hopened, Bool.or_true]
        exact Connection.Persists.opened hthere bufEvent
      · rw [if_neg hopened] at hspec
        rw [Bool.not_eq_true] at hopened
        rw [hopened, Bool.or_false] at hever
        by_cases hclosing : ClientState.Closing events inputLen
        · rw [if_pos hclosing] at hspec
          have htimer : env.setTimer = true := hset
          rw [hspec.1, hspec.2, hever, htimer]
          exact h.closed hreconnect hthere fun hnever => hfirst hnever hclosing
        · rw [if_neg hclosing] at hspec
          rw [hspec.1, hspec.2, hever]
          exact h
  | read bufEvent chunk env => rw [hspec.1, hspec.2.1, hspec.2.2]; exact h
  | send msgHead msgBody asyncCtx env =>
      rw [hspec.1, hspec.2.1, hspec.2.2]
      exact h
  | addNfySink sink => rw [hspec.1, hspec.2.1, hspec.2.2]; exact h
  | removeNfySink sink => rw [hspec.1, hspec.2.1, hspec.2.2]; exact h
  | table tc => rw [hspec.1, hspec.2.1, hspec.2.2]; exact h

theorem trying_of_persists {s : ClientRun}
    (h : s.state.connection.Persists ctx s.succeeded s.everConnected) :
    s.Trying ctx := by
  unfold Trying
  cases hremoved : s.state.removed with
  | true =>
      right; right; right
      exact ⟨rfl, h.gone hremoved⟩
  | false =>
      cases hever : s.everConnected with
      | true =>
          rcases h.later hever hremoved with hup | htimer
          · left
            exact hup
          · right; right; left
            exact htimer
      | false =>
          right; left
          obtain ⟨-, -, -, hnone, b, hb⟩ := h.first hever hremoved
          have hset : s.state.client.bufeventSet = {b} := hb
          refine ⟨b, ?_, ?_⟩
          · rw [hset]
            exact Finset.mem_singleton_self b
          · rw [hnone]
            exact Finset.notMem_empty b

theorem firstSucceeds_of_trying {s s' : ClientRun} {a : ClientAction}
    (hreconnect : ¬ctx.NoReconnect)
    (h : s.state.connection.Persists ctx s.succeeded s.everConnected)
    (hstep : s.step ctx a = some s') (htrying : s'.Trying ctx) :
    FirstSucceeds ctx s a := by
  obtain ⟨hthere, hspec⟩ := step_connection hstep
  cases a with
  | event bufEvent events inputLen env =>
      intro hnever hclosing
      obtain ⟨hmem, -, hspec⟩ := hspec
      obtain ⟨hdown, hstopped, hcount, -, b, hb⟩ := h.first hnever hthere
      have hopened : ¬events.connected = true := by
        rw [hclosing.1]
        exact Bool.false_ne_true
      rw [if_neg hopened, if_pos hclosing] at hspec
      have hlast : s.state.connection.bufeventSet.erase bufEvent = ∅ := by
        have hset : s.state.client.bufeventSet = {b} := hb
        rw [hset, Finset.mem_singleton] at hmem
        rw [hb, hmem]
        simp
      by_contra hlimit
      have hafter : s'.state.connection = { s.state.connection with
          bufeventSet := ∅, reconnectFailedCount := 1 } := by
        rw [hspec.1]
        unfold Connection.closed Connection.countFailure
        simp [hreconnect, hdown, hlast, hcount, hlimit]
      rcases htrying with hup | ⟨b', hb', -⟩ | htimer | ⟨hremoved, -⟩
      · have hup' : s'.state.connection.connected = true := hup
        rw [hafter] at hup'
        simp [hdown] at hup'
      · have hb'' : b' ∈ s'.state.connection.bufeventSet := hb'
        rw [hafter] at hb''
        simp at hb''
      · have htimer' : s'.state.connection.connectTimer = true := htimer
        rw [hafter] at htimer'
        simp [hstopped] at htimer'
      · have hremoved' : s'.state.connection.removed = true := hremoved
        have hthere' : s.state.connection.removed = false := hthere
        rw [hafter] at hremoved'
        simp [hthere'] at hremoved'
  | onTimer bufEvent => trivial
  | read bufEvent chunk env => trivial
  | send msgHead msgBody asyncCtx env => trivial
  | addNfySink sink => trivial
  | removeNfySink sink => trivial
  | table tc => trivial

/-- **When a reconnecting client is never stuck.**  With a reconnect interval and
timers that can be set, exactly in the runs in which no attempt fails before the
client has been connected once, or one failure is what it is removed for. -/
theorem run_trying_iff (ctx : ClientCenterCtx) (hreconnect : ¬ctx.NoReconnect)
    (peer : Peer) (tc : TransCenter) (bufEvent : ℕ) (as : List ClientAction)
    (hset : ∀ a ∈ as, SetsTimer a) :
    LabelledRun.Along (step ctx) (Trying ctx) (fun _ _ _ => True)
        (activated peer tc bufEvent) as ↔
      LabelledRun.Guarded (step ctx) (FirstSucceeds ctx)
        (activated peer tc bufEvent) as := by
  have hstart : (activated peer tc bufEvent).state.connection.Persists ctx
      (activated peer tc bufEvent).succeeded
      (activated peer tc bufEvent).everConnected := by
    constructor
    · intro _ _
      exact ⟨rfl, rfl, rfl, rfl, bufEvent, rfl⟩
    · intro hever
      cases hever
    · intro hremoved
      cases hremoved
  have hgood : ∀ s : ClientRun,
      s.state.connection.Persists ctx s.succeeded s.everConnected →
        s.Trying ctx := fun s => trying_of_persists
  refine LabelledRun.along_iff_guarded_of_allowed hgood ?_ ?_ as hset hstart
  · intro s a s' h hallowed hfirst hstep
    exact ⟨step_persists hreconnect hallowed h hfirst hstep, trivial⟩
  · intro s a s' h _ hstep _ htrying
    exact firstSucceeds_of_trying hreconnect h hstep htrying

theorem run_trying_after_disconnect :
    LabelledRun.Along (step plainCtx) (Trying plainCtx) (fun _ _ _ => True)
      (activated peerB .empty 1)
      [.event 1 connectedEvent 0 quietEnv, .event 1 eofEvent 0 quietEnv,
        .onTimer (some 2), .event 2 errorEvent 0 quietEnv] := by
  have hset : ∀ a ∈ ([.event 1 connectedEvent 0 quietEnv,
      .event 1 eofEvent 0 quietEnv, .onTimer (some 2),
      .event 2 errorEvent 0 quietEnv] : List ClientAction), SetsTimer a := by
    simp [SetsTimer, quietEnv]
  exact (run_trying_iff plainCtx (by decide) peerB .empty 1 _ hset).mpr
    (by decide +kernel)

theorem run_first_attempt_fails :
    ¬∀ as : List ClientAction, (∀ a ∈ as, SetsTimer a) →
      LabelledRun.Along (step plainCtx) (Trying plainCtx) (fun _ _ _ => True)
        (activated peerB .empty 1) as := by
  intro h
  have hset : ∀ a ∈ [ClientAction.event 1 errorEvent 0 quietEnv],
      SetsTimer a := by
    simp [SetsTimer, quietEnv]
  have hafter : ((activated peerB .empty 1).step plainCtx
      (.event 1 errorEvent 0 quietEnv)).map (fun s =>
        (s.state.client.connected, s.state.client.bufeventSet,
          s.state.connectTimer, s.state.removed)) =
      some (false, ∅, false, false) := by decide +kernel
  cases hstep : (activated peerB .empty 1).step plainCtx
      (.event 1 errorEvent 0 quietEnv) with
  | none =>
      rw [hstep] at hafter
      cases hafter
  | some s =>
      rw [hstep, Option.map_some, Option.some.injEq, Prod.mk.injEq, Prod.mk.injEq,
        Prod.mk.injEq] at hafter
      obtain ⟨hconnected, hset', htimer, hremoved⟩ := hafter
      have htrying : s.Trying plainCtx := ((h _ hset).2 s hstep).2
      simp [Trying, hconnected, hset', htimer, hremoved] at htrying

end ClientRun

end CommonComponent
