import CommonComponent.ProtoTcpClientPeers

/-!
# One client beside the rest of the process

The process of a client works on the table that the client shares with it: other
clients and HTTP requests record, answer and cancel transactions, peers connect and
close, and transactions time out.  A run in which the client reads no frame that names
a transaction of another peer leaves these alone.  Two such runs that differ in what
the client receives tell the transactions of other peers the same, until they end; the
ids that the client's own messages and callbacks take may be different, so the
transactions compared are those that have the same id in both.
-/

namespace CommonComponent

open TransCenter

/-- The table is that of `table`; the one in `client` is out of date. -/
structure ClientBeside where
  client : ClientState
  table : WatchedTable

/-- A call of `ReadCallback`, something else that happens to the client itself, or what
the rest of the process does to the table. -/
inductive BesideAction
  | read (chunk : Bytes) (env : CallEnv)
  | client (client : Client)
  | table (action : TableAction) (cbs : Callbacks)

namespace ClientBeside

variable {ctx : ClientCenterCtx}

/-- What a watched transaction hears of a note. -/
def heardOf (watched : Finset TransID) : ReadNote → Option TransTold
  | .onRecvRsp transId _ ctx msgHead msgBody =>
      if transId ∈ watched then some ⟨transId, ctx, .onRecvRsp msgHead msgBody⟩ else none
  | .cancelTrans _ _ => none
  | .onRecvNfy _ _ _ _ => none

/-- The client with the table as it is now. -/
def state (s : ClientBeside) : ClientState := { s.client with tc := s.table.tc }

/-- A call of `ReadCallback` has come to `t`.  A watched transaction that it has
answered, or that is not in the table any more, has ended. -/
def afterRead (s : ClientBeside) (t : ClientState) : ClientBeside :=
  let notes := t.told.drop s.client.told.length
  { client := t
    table :=
      { tc := t.tc
        watched := s.table.watched.filter fun id =>
          (t.tc.transHashMap id).isSome ∧ ∀ note ∈ notes, note.transId ≠ some id
        heard := s.table.heard ++ notes.filterMap (heardOf s.table.watched) } }

def step (ctx : ClientCenterCtx) (s : ClientBeside) : BesideAction → Option ClientBeside
  | .read chunk env => (s.state.readCallback ctx env chunk).map s.afterRead
  | .client client =>
      if client.peer = s.client.client.peer then
        some { s with client := { s.client with client := client } }
      else none
  | .table action cbs => (s.table.step cbs action).map fun table => { s with table := table }

/-! ## What a read leaves alone -/

/-- A call of `ReadCallback` tells nobody about another peer's transaction, and leaves
each of them in the table unless a callback cancels it. -/
def MatchedPerPeer (s : ClientBeside) (a : BesideAction) (s' : ClientBeside) : Prop :=
  match a with
  | .read _ env =>
      (∀ note ∈ s'.client.told.drop s.client.told.length,
          ¬note.Foreign s.client.client.peer) ∧
        ∀ id transCtx, s.table.tc.transHashMap id = some transCtx →
          transCtx.peer ≠ s.client.client.peer → ClientState.Spares env id →
            s'.table.tc.transHashMap id = some transCtx
  | _ => True

/-- No frame that has its turn in the call names another peer's transaction. -/
def ReadsOwn (ctx : ClientCenterCtx) (s : ClientBeside) : BesideAction → Prop
  | .read chunk env =>
      chunk = [] ∨ s.state.AllNameOwn ctx env 0
        (ctx.msgCodec.framing.drain (s.client.client.recvedData ++ chunk)).1
  | _ => True

instance (s : ClientBeside) (a : BesideAction) : Decidable (s.ReadsOwn ctx a) := by
  cases a <;> unfold ReadsOwn <;> infer_instance

theorem read_spec {s s' : ClientBeside} {chunk : Bytes} {env : CallEnv}
    (h : s.table.tc.Ordered) (hstep : s.step ctx (.read chunk env) = some s') :
    s' = s.afterRead s'.client ∧ s'.table.tc.Ordered ∧
      s'.client.client.peer = s.client.client.peer ∧
      (∃ notes, s'.client.told = s.client.told ++ notes ∧
        ((∀ note ∈ notes, ¬note.Foreign s.client.client.peer) ↔
          s.ReadsOwn ctx (.read chunk env))) ∧
      (s.ReadsOwn ctx (.read chunk env) → ∀ id transCtx,
        s.table.tc.transHashMap id = some transCtx →
        transCtx.peer ≠ s.client.client.peer → ClientState.Spares env id →
          ClientState.LeftAlone id s.state s'.client) := by
  obtain ⟨t, hcall, rfl⟩ := Option.map_eq_some_iff.mp hstep
  obtain ⟨t', hcall', hreads⟩ := ClientState.readCallback_reads ctx env s.state chunk
  rw [hcall, Option.some.injEq] at hcall'
  subst hcall'
  rcases hreads with ⟨hnil, rfl⟩ | ⟨hchunk, hreads⟩
  · refine ⟨rfl, h, rfl, ⟨[], by simp [state, afterRead], ?_⟩, fun _ id _ _ _ _ => ?_⟩
    · simp [ReadsOwn, hnil]
    · exact .refl id s.state
  · have hown : s.ReadsOwn ctx (.read chunk env) ↔
        (s.state.setRecvedData (s.client.client.recvedData ++ chunk)).AllNameOwn ctx env 0
          (ctx.msgCodec.framing.drain (s.client.client.recvedData ++ chunk)).1 := by
      rw [ClientState.allNameOwn_setRecvedData]
      simp [ReadsOwn, hchunk]
    obtain ⟨notes, htold, hnotes⟩ := hreads.notes
    refine ⟨rfl, hreads.ordered h, hreads.sameConnection.peer, ⟨notes, htold, ?_⟩, ?_⟩
    · rw [hown]
      exact hnotes
    · intro hreadsOwn id transCtx hlive hother hspares
      have hleft := hreads.leftAlone h (hown.mp hreadsOwn) hlive hother hspares
      exact ⟨hleft.keeps, hleft.told⟩

theorem step_matchedPerPeer_iff {s s' : ClientBeside} {a : BesideAction}
    (h : s.table.tc.Ordered) (hstep : s.step ctx a = some s') :
    MatchedPerPeer s a s' ↔ s.ReadsOwn ctx a := by
  cases a with
  | client client => exact Iff.rfl
  | table action cbs => exact Iff.rfl
  | read chunk env =>
      obtain ⟨hafter, -, -, ⟨notes, htold, hnotes⟩, hleft⟩ := read_spec h hstep
      unfold MatchedPerPeer
      simp only
      rw [htold, List.drop_left, hnotes]
      constructor
      · exact And.left
      · intro hown
        refine ⟨hown, fun id transCtx hlive hother hspares => ?_⟩
        have hkept := (hleft hown id transCtx hlive hother hspares).keeps.trans
        have htc : s'.table.tc = s'.client.tc := by rw [hafter]; rfl
        rw [htc, hkept]
        exact hlive

/-! ## Two runs -/

/-- A run that has nothing to watch, from a table that the process can reach. -/
def unwatched (client : ClientState) (tc : TransCenter) : ClientBeside where
  client := client
  table := ⟨tc, ∅, []⟩

/-- The table when the transactions of `v` begin to be watched. -/
def watching (client : ClientState) (tc : TransCenter) (v : Watched) : ClientBeside where
  client := client
  table := ⟨tc, v.ids, []⟩

/-- The transactions of `v` are in the table, and belong to other peers. -/
def ThereIn (v : Watched) (peer : Peer) (tc : TransCenter) : Prop :=
  ∀ x ∈ v.ids, tc.transHashMap x = some (v.ctx x) ∧ (v.ctx x).peer ≠ peer ∧
    (tc.rspMsgMgr.recordHashMap x).map (fun r => r.upsertTime + r.timeoutSec) = v.expiry x

instance (v : Watched) (peer : Peer) (tc : TransCenter) : Decidable (ThereIn v peer tc) :=
  inferInstanceAs (Decidable (∀ x ∈ v.ids, _))

/-- What the rest of the process does to the table, with the callbacks that it makes
for watched transactions. -/
def elsewhere : BesideAction →
    Option (TableAction × (TransID → TransEvent → List TransOp))
  | .read _ _ => none
  | .client _ => none
  | .table action cbs => some (action, cbs.watched)

/-- No callback for a transaction that is not watched cancels one that is. -/
def SparesAll (ids : Finset TransID) : BesideAction → Prop
  | .read _ env => ∀ x ∈ ids, ClientState.Spares env x
  | .client _ => True
  | .table _ cbs => cbs.Spares ids

/-- What a list of actions shows of the watched transactions. -/
inductive ShowsAll (v : Watched) :
    List (TableAction × (TransID → TransEvent → List TransOp)) → Seen → Seen → Prop
  | nil {o} : ShowsAll v [] o o
  | cons {action react later o o' o''} (hfirst : Seen.Shows v react action o o')
      (hlater : ShowsAll v later o' o'') : ShowsAll v ((action, react) :: later) o o''

theorem ShowsAll.unique {v : Watched}
    {actions : List (TableAction × (TransID → TransEvent → List TransOp))} {o a b : Seen}
    (ha : ShowsAll v actions o a) (hb : ShowsAll v actions o b) : a = b := by
  induction ha with
  | nil =>
      cases hb
      rfl
  | cons hfirst hlater ih =>
      cases hb with
      | cons hfirst' hlater' =>
          obtain rfl := hfirst.unique hfirst'
          exact ih hlater'

/-- A read that names no transaction of another peer shows nothing. -/
theorem read_seen {v : Watched} {s s' : ClientBeside} {chunk : Bytes} {env : CallEnv}
    (h : Watches v ∅ s.table)
    (hother : ∀ x ∈ v.ids, (v.ctx x).peer ≠ s.client.client.peer)
    (hspares : ∀ x ∈ v.ids, ClientState.Spares env x)
    (hown : s.ReadsOwn ctx (.read chunk env))
    (hstep : s.step ctx (.read chunk env) = some s') :
    Watches v ∅ s'.table ∧ s'.table.seen = s.table.seen := by
  obtain ⟨hafter, hordered, -, ⟨notes, htold, -⟩, hleft⟩ := read_spec h.ordered hstep
  have halone : ∀ x ∈ s.table.watched, ClientState.LeftAlone x s.state s'.client :=
    fun x hx => hleft hown x _ (h.there x hx) (hother x (h.sub hx)) (hspares x (h.sub hx))
  have hnotes : ∀ x ∈ s.table.watched, ∀ note ∈ notes, note.transId ≠ some x := by
    intro x hx
    obtain ⟨notes', htold', hnotes⟩ := (halone x hx).told
    have hsame : notes' = notes :=
      List.append_cancel_left (htold'.symm.trans htold)
    exact hsame ▸ hnotes
  have hwatched : s'.table.watched = s.table.watched := by
    rw [hafter]
    simp only [afterRead, htold, List.drop_left]
    refine Finset.filter_true_of_mem fun x hx => ⟨?_, hnotes x hx⟩
    rw [(halone x hx).keeps.trans]
    exact Option.isSome_iff_exists.mpr ⟨_, h.there x hx⟩
  have hheard : s'.table.heard = s.table.heard := by
    rw [hafter]
    simp only [afterRead, htold, List.drop_left]
    rw [List.append_right_eq_self, List.filterMap_eq_nil_iff]
    intro note hnote
    cases note with
    | onRecvRsp transId peer ctx msgHead msgBody =>
        refine if_neg fun hmem => ?_
        exact hnotes transId hmem _ hnote rfl
    | cancelTrans transId ctx => rfl
    | onRecvNfy sink peer msgHead msgBody => rfl
  refine ⟨h.of_keeps hordered hwatched.le fun x hx => ?_, ?_⟩
  · have htc : s'.table.tc = s'.client.tc := by rw [hafter]; rfl
    rw [htc]
    exact (halone x (hwatched ▸ hx)).keeps
  · unfold WatchedTable.seen
    rw [hwatched, hheard]

theorem run_shows {v : Watched} {peer : Peer} (hother : ∀ x ∈ v.ids, (v.ctx x).peer ≠ peer)
    {as : List BesideAction} {s t : ClientBeside} (h : Watches v ∅ s.table)
    (hpeer : s.client.client.peer = peer)
    (hown : LabelledRun.Guarded (step ctx) (ReadsOwn ctx) s as)
    (hspares : ∀ a ∈ as, SparesAll v.ids a)
    (hrun : LabelledRun.run (step ctx) s as = some t) :
    ShowsAll v (as.filterMap elsewhere) s.table.seen t.table.seen := by
  induction as generalizing s with
  | nil =>
      cases hrun
      exact .nil
  | cons a as ih =>
      rw [List.forall_mem_cons] at hspares
      obtain ⟨s', hstep, hlater⟩ := Option.bind_eq_some_iff.mp hrun
      obtain ⟨hguard, hguards⟩ := hown s' hstep
      cases a with
      | read chunk env =>
          obtain ⟨-, -, hpeer', -⟩ := read_spec h.ordered hstep
          obtain ⟨hafter, hseen⟩ := read_seen h (hpeer ▸ hother) hspares.1 hguard hstep
          rw [← hseen]
          exact ih hafter (hpeer'.trans hpeer) hguards hspares.2 hlater
      | client client =>
          simp only [step] at hstep
          split at hstep
          next hsame =>
            cases hstep
            exact ih (s := { s with client := { s.client with client := client } }) h
              (hsame.trans hpeer) hguards hspares.2 hlater
          next => cases hstep
      | table action cbs =>
          obtain ⟨table, htable, rfl⟩ := Option.map_eq_some_iff.mp hstep
          obtain ⟨hafter, hshows⟩ := WatchedTable.step_shows h hspares.1 htable
          exact .cons hshows (ih (s := { s with table := table }) hafter hpeer hguards
            hspares.2 hlater)

theorem run_ordered {history : List TransAction} {shared : TransState}
    (hshared : LabelledRun.run TransState.step TransState.start history = some shared) :
    shared.tc.Ordered :=
  ⟨(TransState.run_filed hshared).toIndexed, TransState.run_index hshared⟩

theorem ThereIn.watches {history : List TransAction} {shared : TransState}
    (hshared : LabelledRun.run TransState.step TransState.start history = some shared)
    {v : Watched} {peer : Peer} (h : ThereIn v peer shared.tc) (client : ClientState) :
    Watches v ∅ (watching client shared.tc v).table where
  ordered := run_ordered hshared
  sub := subset_rfl
  there := fun x hx => (h x hx).1
  sinked := fun x hx => (TransState.run_filed hshared).sinked x _ (h x hx).1
  expiry := fun x hx _ => (h x hx).2.2

theorem step_unwatched {s s' : ClientBeside} {a : BesideAction}
    (h : s.table.watched = ∅ ∧ s.table.tc.Ordered) (hstep : s.step ctx a = some s') :
    s'.table.watched = ∅ ∧ s'.table.tc.Ordered := by
  cases a with
  | read chunk env =>
      obtain ⟨hafter, hordered, -⟩ := read_spec h.2 hstep
      refine ⟨?_, hordered⟩
      rw [hafter]
      simp [afterRead, h.1]
  | client client =>
      simp only [step] at hstep
      split at hstep
      next =>
        cases hstep
        exact h
      next => cases hstep
  | table action cbs =>
      obtain ⟨table, htable, rfl⟩ := Option.map_eq_some_iff.mp hstep
      have hwatches : Watches ⟨∅, fun _ => TransState.timedCtx, fun _ => none⟩ ∅ s.table :=
        ⟨h.2, by simp [h.1], by simp [h.1], by simp [h.1], by simp [h.1]⟩
      obtain ⟨hafter, -⟩ := WatchedTable.step_shows hwatches (by simp [Callbacks.Spares])
        htable
      exact ⟨Finset.subset_empty.mp hafter.sub, hafter.ordered⟩

/-- **When a client's stream stays with its own peer's transactions**, from every
reachable table: exactly in the runs whose calls meet `ReadsOwn`.  In two such runs, from
any two reachable tables, that are the same but for what the client receives, the
transactions of other peers that are in both tables with one id are told the same, and
end together; callbacks made for other transactions must leave them alone. -/
theorem run_matchedPerPeer_iff (ctx : ClientCenterCtx) {history : List TransAction}
    {shared : TransState} {client : ClientState}
    (hshared : LabelledRun.run TransState.step TransState.start history = some shared) :
    (∀ as, LabelledRun.Along (step ctx) (fun _ => True) MatchedPerPeer
        (unwatched client shared.tc) as ↔
      LabelledRun.Guarded (step ctx) (ReadsOwn ctx) (unwatched client shared.tc) as) ∧
    ∀ (v : Watched) (history' : List TransAction) (shared' : TransState)
      (client' : ClientState),
      LabelledRun.run TransState.step TransState.start history' = some shared' →
      client'.client.peer = client.client.peer →
      ThereIn v client.client.peer shared.tc → ThereIn v client.client.peer shared'.tc →
      ∀ as as' t t',
        as.filterMap elsewhere = as'.filterMap elsewhere →
        LabelledRun.Guarded (step ctx) (ReadsOwn ctx) (watching client shared.tc v) as →
        LabelledRun.Guarded (step ctx) (ReadsOwn ctx) (watching client' shared'.tc v) as' →
        (∀ a ∈ as, SparesAll v.ids a) → (∀ a ∈ as', SparesAll v.ids a) →
        LabelledRun.run (step ctx) (watching client shared.tc v) as = some t →
        LabelledRun.run (step ctx) (watching client' shared'.tc v) as' = some t' →
          t.table.heard = t'.table.heard ∧ t.table.watched = t'.table.watched := by
  constructor
  · intro as
    have hstart : (unwatched client shared.tc).table.watched = ∅ ∧
        (unwatched client shared.tc).table.tc.Ordered := ⟨rfl, run_ordered hshared⟩
    have hgood : ∀ s : ClientBeside, s.table.watched = ∅ ∧ s.table.tc.Ordered → True :=
      fun _ _ => trivial
    refine LabelledRun.along_iff_guarded hgood ?_ ?_ as hstart
    · intro s a s' hs ha hstep
      exact ⟨step_unwatched hs hstep, (step_matchedPerPeer_iff hs.2 hstep).mpr ha⟩
    · intro s a s' hs hstep hgood _
      exact (step_matchedPerPeer_iff hs.2 hstep).mp hgood
  · intro v history' shared' client' hshared' hpeer hthere hthere' as as' t t' hsame
      hown hown' hspares hspares' hrun hrun'
    have hother : ∀ x ∈ v.ids, (v.ctx x).peer ≠ client.client.peer :=
      fun x hx => (hthere x hx).2.1
    have hshows := run_shows hother (hthere.watches hshared client) rfl hown hspares hrun
    have hshows' := run_shows hother (hthere'.watches hshared' client') hpeer hown'
      hspares' hrun'
    rw [← hsame] at hshows'
    have hseen : t.table.seen = t'.table.seen := hshows.unique hshows'
    exact ⟨congrArg Seen.heard hseen, congrArg Seen.live hseen⟩

/-- A transaction of 10.0.0.1 and one of 10.0.0.2. -/
def twoPeers : List TransAction :=
  [.record 0 TransState.timedCtx, .record 0 { TransState.timedCtx with peer := peerB }]

def timedTrans : Watched := ⟨{1}, fun _ => TransState.timedCtx, fun _ => some 1⟩

/-- Both transactions time out. -/
def timesOut : List BesideAction := [.table (.onTimer 5 [1, 2]) ⟨fun _ _ => [], fun _ _ => []⟩]

/-- 10.0.0.2 answers its own transaction; and the transaction of 10.0.0.1 times out the
same when 10.0.0.2 has sent a length that is refused. -/
theorem run_matchedPerPeer_own_response :
    ∃ shared, LabelledRun.run TransState.step TransState.start twoPeers = some shared ∧
      LabelledRun.Along (step plainCtx) (fun _ => True) MatchedPerPeer
        (unwatched (.activate peerB .empty 1) shared.tc)
        [.read (rspFrameTo 2) quietEnv] ∧
      ∀ t t', LabelledRun.run (step plainCtx)
          (watching (.activate peerB .empty 1) shared.tc timedTrans) timesOut = some t →
        LabelledRun.run (step plainCtx)
          (watching (.activate peerB .empty 1) shared.tc timedTrans)
          (.read [0, 0, 0, 1] quietEnv :: timesOut) = some t' →
            t.table.heard = t'.table.heard ∧ t.table.watched = t'.table.watched := by
  have hshared : LabelledRun.run TransState.step TransState.start twoPeers = some _ := rfl
  refine ⟨_, hshared, ?_, fun t t' hrun hrun' => ?_⟩
  · apply ((run_matchedPerPeer_iff plainCtx hshared).1 _).mpr
    decide +kernel
  · refine (run_matchedPerPeer_iff plainCtx hshared).2 timedTrans _ _ _ hshared rfl
      (by decide +kernel) (by decide +kernel) timesOut
      (.read [0, 0, 0, 1] quietEnv :: timesOut) t t' rfl (by decide +kernel)
      (by decide +kernel) ?_ ?_ hrun hrun'
    · simp [timesOut, SparesAll, Callbacks.Spares]
    · simp [timesOut, SparesAll, Callbacks.Spares, ClientState.Spares, quietEnv]

/-- The transaction has been told of its timeout in both. -/
example : ((LabelledRun.run TransState.step TransState.start twoPeers).bind fun shared =>
    (LabelledRun.run (step plainCtx)
      (watching (.activate peerB .empty 1) shared.tc timedTrans)
      (.read [0, 0, 0, 1] quietEnv :: timesOut)).map fun t => t.table.heard) =
    some [⟨1, TransState.timedCtx, .onTimeout⟩] := by
  decide +kernel

/-- A response from 10.0.0.2 that names a transaction of 10.0.0.1. -/
theorem run_matchedPerPeer_forged_passback :
    ¬∀ (history : List TransAction) (shared : TransState) (client : ClientState)
        (as : List BesideAction),
      LabelledRun.run TransState.step TransState.start history = some shared →
        LabelledRun.Along (step plainCtx) (fun _ => True) MatchedPerPeer
          (unwatched client shared.tc) as := by
  intro h
  obtain ⟨shared, hshared⟩ : ∃ shared,
      LabelledRun.run TransState.step TransState.start
        [.record 0 TransState.timedCtx] = some shared := ⟨_, rfl⟩
  have htold : (LabelledRun.run TransState.step TransState.start
      [.record 0 TransState.timedCtx]).bind (fun shared =>
        (step plainCtx (unwatched (.activate peerB .empty 1) shared.tc)
          (.read (rspFrameTo 1) quietEnv)).map fun t =>
            decide (∀ note ∈ t.client.told, ¬note.Foreign peerB)) = some false := by
    decide +kernel
  rw [hshared, Option.bind_some] at htold
  cases hstep : step plainCtx (unwatched (.activate peerB .empty 1) shared.tc)
      (.read (rspFrameTo 1) quietEnv) with
  | none =>
      rw [hstep] at htold
      cases htold
  | some t =>
      rw [hstep, Option.map_some, Option.some.injEq, decide_eq_false_iff_not] at htold
      exact htold ((h _ shared (.activate peerB .empty 1)
        [.read (rspFrameTo 1) quietEnv] hshared).2 t hstep).1.1

end ClientBeside

end CommonComponent
