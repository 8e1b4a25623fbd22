import CommonComponent.RecordTimeoutMgrRun
import CommonComponent.SeqNum
import Mathlib.Tactic

/-!
# The connection tables of a thread

`ConnCenter` knows its connections by socket fd and by connection id, takes the
ids from a `SeqNum` and, being a `RecordTimeoutMgr` of the ids, keeps the time of
the last activity of each.  `Rep` says that the four agree and that they hold the
live connection objects and no others.

A connection object is known by the number of objects made before it.  A
function that reads an object through a pointer to a destroyed one has no result.
-/

namespace CommonComponent

structure BaseConn where
  connId : ℤ
  sockFd : ℤ
deriving DecidableEq

structure ClientCtx where
  conn : Option ℕ
  startTime : ℤ
  recvCount : ℤ
deriving DecidableEq

/-- The default constructor, as `operator[]` uses it. -/
def ClientCtx.new : ClientCtx where
  conn := none
  startTime := 0
  recvCount := 0

structure ConnCenterCtx where
  inactiveConnLife : ℤ
  stormInterval : ℤ
  stormThreshold : ℤ

/-- Which of the calls that `CreateConn` makes on the new object succeed. -/
structure CreateConnEnv where
  made : Bool
  initialized : Bool

@[ext]
structure ConnCenter where
  conns : ℕ → Option BaseConn
  nextConn : ℕ
  connHashMap : ℤ → Option ClientCtx
  connIdSeq : SeqNum i32SeqRange
  connIdHashMap : ℤ → Option ℕ
  recordMgr : RecordTimeoutMgr ℤ ℕ

namespace ConnCenter

def empty : ConnCenter where
  conns := fun _ => none
  nextConn := 0
  connHashMap := fun _ => none
  connIdSeq := .reset _
  connIdHashMap := fun _ => none
  recordMgr := .empty

def getConnBySockFd (cc : ConnCenter) (sockFd : ℤ) : Option ℕ :=
  (cc.connHashMap sockFd).bind (·.conn)

def getConnById (cc : ConnCenter) (connId : ℤ) : Option ℕ :=
  cc.connIdHashMap connId

/-- `if (RecordExist(conn_id)) RemoveRecord(conn_id)`. -/
def dropRecord (cc : ConnCenter) (connId : ℤ) : ConnCenter :=
  if cc.recordMgr.recordExist connId then
    { cc with recordMgr := cc.recordMgr.removeRecord connId }
  else cc

def clear (cc : ConnCenter) (ref : ℕ) (conn : BaseConn) : ConnCenter :=
  { cc with
    connHashMap := Function.update cc.connHashMap conn.sockFd none
    conns := Function.update cc.conns ref none
    connIdSeq := cc.connIdSeq.free conn.connId
    connIdHashMap := Function.update cc.connIdHashMap conn.connId none }

/-- The object made and given its id, before `Initialize`. -/
def makeConn (cc : ConnCenter) (connId sockFd : ℤ)
    (connIdSeq : SeqNum i32SeqRange) : ConnCenter :=
  { cc with
    conns := Function.update cc.conns cc.nextConn (some ⟨connId, sockFd⟩)
    nextConn := cc.nextConn + 1
    connIdSeq := connIdSeq }

/-- The object entered into the tables. -/
def enterConn (cc : ConnCenter) (ctx : ConnCenterCtx) (now : ℤ) (ref : ℕ)
    (conn : BaseConn) : ConnCenter :=
  { cc with
    connIdHashMap := Function.update cc.connIdHashMap conn.connId (some ref)
    connHashMap :=
      Function.update cc.connHashMap conn.sockFd (some ⟨some ref, now, 0⟩)
    recordMgr := cc.recordMgr.upsertRecord now conn.connId ref
      ctx.inactiveConnLife }

def createConn (cc : ConnCenter) (ctx : ConnCenterCtx) (env : CreateConnEnv)
    (now sockFd : ℤ) : ConnCenter × Option ℕ :=
  if !env.made then (cc, none)
  else
    let (connId, connIdSeq) := cc.connIdSeq.alloc
    if connId = invalidSeqNum then
      ({ cc with nextConn := cc.nextConn + 1, connIdSeq := connIdSeq }, none)
    else
      let made := cc.makeConn connId sockFd connIdSeq
      if !env.initialized || (cc.connIdHashMap connId).isSome then
        ((made.dropRecord connId).clear cc.nextConn ⟨connId, sockFd⟩, none)
      else
        (made.enterConn ctx now cc.nextConn ⟨connId, sockFd⟩, some cc.nextConn)

/-- `DestroyConn`, with the object it destroys. -/
def destroyConn (cc : ConnCenter) (sockFd : ℤ) : Option (ConnCenter × Option ℕ) :=
  match cc.connHashMap sockFd with
  | none => some (cc, none)
  | some client =>
      match client.conn with
      | none => none
      | some ref =>
          (cc.conns ref).map fun conn =>
            ((cc.dropRecord conn.connId).clear ref conn, some ref)

def refresh (cc : ConnCenter) (ctx : ConnCenterCtx) (now connId : ℤ) (ref : ℕ) :
    ConnCenter :=
  { cc with recordMgr :=
      cc.recordMgr.upsertRecord now connId ref ctx.inactiveConnLife }

def putClient (cc : ConnCenter) (sockFd : ℤ) (client : ClientCtx) : ConnCenter :=
  { cc with
    connHashMap := Function.update cc.connHashMap sockFd (some client) }

/-- `UpdateConnStatus`; `false` is the storm. -/
def updateConnStatus (cc : ConnCenter) (ctx : ConnCenterCtx) (now connId : ℤ)
    (received : Bool) : Option (ConnCenter × Bool) :=
  match cc.connIdHashMap connId with
  | none => some (cc, true)
  | some ref =>
      if received then
        (cc.conns ref).map fun conn =>
          let client := (cc.connHashMap conn.sockFd).getD ClientCtx.new
          let counted := { client with recvCount := client.recvCount + 1 }
          if ctx.stormInterval ≤ now - counted.startTime then
            if ctx.stormThreshold ≤ counted.recvCount then
              (cc.putClient conn.sockFd counted, false)
            else
              ((cc.putClient conn.sockFd
                { counted with startTime := now, recvCount := 0 }).refresh ctx
                  now connId ref, true)
          else
            ((cc.putClient conn.sockFd counted).refresh ctx now connId ref, true)
      else some (cc.refresh ctx now connId ref, true)

/-- The tables agree on which connections there are. -/
structure Rep (cc : ConnCenter) : Prop where
  of_id : ∀ id ref, cc.connIdHashMap id = some ref →
    ∃ conn, cc.conns ref = some conn ∧ conn.connId = id
  of_fd : ∀ fd client, cc.connHashMap fd = some client →
    ∃ ref conn, client.conn = some ref ∧ cc.conns ref = some conn ∧
      conn.sockFd = fd
  filed : ∀ ref conn, cc.conns ref = some conn →
    cc.connIdHashMap conn.connId = some ref ∧
      cc.getConnBySockFd conn.sockFd = some ref
  inuse : ∀ id, id ∈ cc.connIdSeq.inuseSeqs ↔ (cc.connIdHashMap id).isSome
  unused : ∀ ref, cc.nextConn ≤ ref → cc.conns ref = none
  index : cc.recordMgr.IndexOk
  recorded : ∀ id r, cc.recordMgr.recordHashMap id = some r →
    cc.connIdHashMap id = some r.v

theorem dropRecord_eq (cc : ConnCenter) (connId : ℤ) :
    cc.dropRecord connId =
      { cc with recordMgr := cc.recordMgr.removeRecord connId } := by
  unfold dropRecord
  cases hr : cc.recordMgr.recordHashMap connId with
  | some r => simp [RecordTimeoutMgr.recordExist, hr]
  | none =>
      simp [RecordTimeoutMgr.recordExist, RecordTimeoutMgr.removeRecord, hr]

/-- What `CreateConn` for a free fd comes to. -/
inductive Creates (cc : ConnCenter) (sockFd : ℤ) : ConnCenter × Option ℕ → Prop
  | failed {cc' : ConnCenter} (hrep : cc'.Rep) (hconns : cc'.conns = cc.conns)
      (hids : cc'.connIdHashMap = cc.connIdHashMap)
      (hinuse : cc'.connIdSeq.inuseSeqs = cc.connIdSeq.inuseSeqs)
      (hrecords : cc'.recordMgr = cc.recordMgr)
      (hnext : cc.nextConn ≤ cc'.nextConn) : Creates cc sockFd (cc', none)
  | created {cc' : ConnCenter} {id : ℤ} (hrep : cc'.Rep)
      (hfree : id ∉ cc.connIdSeq.inuseSeqs)
      (hconns : cc'.conns =
        Function.update cc.conns cc.nextConn (some ⟨id, sockFd⟩))
      (hids : cc'.connIdHashMap =
        Function.update cc.connIdHashMap id (some cc.nextConn))
      (hinuse : cc'.connIdSeq.inuseSeqs = insert id cc.connIdSeq.inuseSeqs)
      (hrecords : ∀ id', cc'.recordMgr.recordExist id' =
        (decide (id' = id) || cc.recordMgr.recordExist id'))
      (hnext : cc'.nextConn = cc.nextConn + 1) :
      Creates cc sockFd (cc', some cc.nextConn)

namespace Rep

variable {cc : ConnCenter}

theorem empty : ConnCenter.empty.Rep where
  of_id := fun _ _ h => nomatch h
  of_fd := fun _ _ h => nomatch h
  filed := fun _ _ h => nomatch h
  inuse := fun id => by simp [ConnCenter.empty, SeqNum.reset]
  unused := fun _ _ => rfl
  index := .empty
  recorded := fun _ _ h => nomatch h

theorem connIdHashMap_of_free (h : cc.Rep) {id : ℤ}
    (hfree : id ∉ cc.connIdSeq.inuseSeqs) : cc.connIdHashMap id = none := by
  by_contra hne
  exact hfree ((h.inuse id).mpr (Option.isSome_iff_ne_none.mpr hne))

theorem recordExist_of_free (h : cc.Rep) {id : ℤ}
    (hfree : cc.connIdHashMap id = none) : cc.recordMgr.recordExist id = false := by
  cases hr : cc.recordMgr.recordHashMap id with
  | none => simp [RecordTimeoutMgr.recordExist, hr]
  | some r =>
      have hid := h.recorded id r hr
      rw [hfree] at hid
      cases hid

theorem of_getConnBySockFd (h : cc.Rep) {sockFd : ℤ} {ref : ℕ}
    (hget : cc.getConnBySockFd sockFd = some ref) :
    ∃ conn, cc.conns ref = some conn ∧ conn.sockFd = sockFd := by
  obtain ⟨client, hclient, href⟩ := Option.bind_eq_some_iff.mp hget
  obtain ⟨ref', conn, href', hconn, hfd⟩ := h.of_fd sockFd client hclient
  rw [href, Option.some.injEq] at href'
  exact ⟨conn, href' ▸ hconn, hfd⟩

theorem connHashMap_of_getConn (h : cc.Rep) {sockFd : ℤ}
    (hget : cc.getConnBySockFd sockFd = none) : cc.connHashMap sockFd = none := by
  cases hclient : cc.connHashMap sockFd with
  | none => rfl
  | some client =>
      obtain ⟨ref, conn, href, -⟩ := h.of_fd sockFd client hclient
      simp [getConnBySockFd, hclient, href] at hget

/-- Two live objects have different ids and fds. -/
theorem ref_eq_of_connId (h : cc.Rep) {ref ref' : ℕ} {conn conn' : BaseConn}
    (hconn : cc.conns ref = some conn) (hconn' : cc.conns ref' = some conn')
    (hid : conn.connId = conn'.connId) : ref = ref' := by
  have href := (h.filed ref conn hconn).1
  rw [hid, (h.filed ref' conn' hconn').1] at href
  exact (Option.some.inj href).symm

theorem ref_eq_of_sockFd (h : cc.Rep) {ref ref' : ℕ} {conn conn' : BaseConn}
    (hconn : cc.conns ref = some conn) (hconn' : cc.conns ref' = some conn')
    (hfd : conn.sockFd = conn'.sockFd) : ref = ref' := by
  have href := (h.filed ref conn hconn).2
  rw [hfd, (h.filed ref' conn' hconn').2] at href
  exact (Option.some.inj href).symm

/-- An object is made and discarded again. -/
theorem discard (h : cc.Rep) {id sockFd : ℤ}
    (hrange : i32SeqRange.seqMin ≤ id ∧ id ≤ i32SeqRange.seqMax)
    (hfree : id ∉ cc.connIdSeq.inuseSeqs)
    (hfd : cc.connHashMap sockFd = none) :
    ((cc.makeConn id sockFd (cc.connIdSeq.take id hrange)).dropRecord id).clear
        cc.nextConn ⟨id, sockFd⟩ =
      { cc with
        nextConn := cc.nextConn + 1
        connIdSeq := (cc.connIdSeq.take id hrange).free id } := by
  have hid := h.connIdHashMap_of_free hfree
  have hrecord : cc.recordMgr.recordExist id = false := h.recordExist_of_free hid
  have hdrop : (cc.makeConn id sockFd (cc.connIdSeq.take id hrange)).dropRecord id =
      cc.makeConn id sockFd (cc.connIdSeq.take id hrange) := by
    simp [dropRecord, makeConn, hrecord]
  rw [hdrop]
  apply ConnCenter.ext
  · simp only [clear, makeConn, Function.update_idem]
    rw [← h.unused cc.nextConn le_rfl, Function.update_eq_self]
  · rfl
  · simp only [clear, makeConn]
    rw [← hfd, Function.update_eq_self]
  · rfl
  · simp only [clear, makeConn]
    rw [← hid, Function.update_eq_self]
  · rfl

/-- A new object enters the tables under a free id and a free fd. -/
theorem enter (h : cc.Rep) (ctx : ConnCenterCtx) (now : ℤ) {id sockFd : ℤ}
    (hrange : i32SeqRange.seqMin ≤ id ∧ id ≤ i32SeqRange.seqMax)
    (hfree : id ∉ cc.connIdSeq.inuseSeqs)
    (hfd : cc.connHashMap sockFd = none) :
    ((cc.makeConn id sockFd (cc.connIdSeq.take id hrange)).enterConn ctx now
      cc.nextConn ⟨id, sockFd⟩).Rep := by
  have hid := h.connIdHashMap_of_free hfree
  have hne : ∀ ref conn, cc.conns ref = some conn → ref ≠ cc.nextConn := by
    rintro ref conn hconn rfl
    simp [h.unused cc.nextConn le_rfl] at hconn
  constructor
  · intro id' ref href
    by_cases heq : id' = id
    · subst heq
      obtain rfl : cc.nextConn = ref := by simpa [enterConn] using href
      exact ⟨⟨id', sockFd⟩, by simp [enterConn, makeConn], rfl⟩
    · obtain ⟨conn, hconn, hconnId⟩ := h.of_id id' ref (by
        simpa [enterConn, makeConn, heq] using href)
      exact ⟨conn, by simpa [enterConn, makeConn, hne ref conn hconn] using hconn,
        hconnId⟩
  · intro fd client hclient
    by_cases heq : fd = sockFd
    · subst heq
      obtain rfl : ⟨some cc.nextConn, now, 0⟩ = client := by
        simpa [enterConn] using hclient
      exact ⟨cc.nextConn, ⟨id, fd⟩, rfl, by simp [enterConn, makeConn], rfl⟩
    · obtain ⟨ref, conn, href, hconn, hconnFd⟩ := h.of_fd fd client (by
        simpa [enterConn, makeConn, heq] using hclient)
      exact ⟨ref, conn, href,
        by simpa [enterConn, makeConn, hne ref conn hconn] using hconn, hconnFd⟩
  · intro ref conn hconn
    by_cases heq : ref = cc.nextConn
    · subst heq
      obtain rfl : ⟨id, sockFd⟩ = conn := by
        simpa [enterConn, makeConn] using hconn
      simp [enterConn, getConnBySockFd]
    · have hconn : cc.conns ref = some conn := by
        simpa [enterConn, makeConn, heq] using hconn
      obtain ⟨href, href'⟩ := h.filed ref conn hconn
      have hid' : conn.connId ≠ id := by
        intro heq'
        simp [heq', hid] at href
      have hfd' : conn.sockFd ≠ sockFd := by
        intro heq'
        simp [getConnBySockFd, heq', hfd] at href'
      exact ⟨by simpa [enterConn, makeConn, hid'] using href,
        by simpa [enterConn, makeConn, getConnBySockFd, hfd'] using href'⟩
  · intro id'
    by_cases heq : id' = id
    · simp [enterConn, makeConn, SeqNum.take, heq]
    · simpa [enterConn, makeConn, SeqNum.take, heq] using h.inuse id'
  · intro ref hle
    have hle : cc.nextConn + 1 ≤ ref := hle
    have hne' : ref ≠ cc.nextConn := by omega
    simpa [enterConn, makeConn, hne'] using h.unused ref (by omega)
  · exact h.index.upsertRecord now id cc.nextConn ctx.inactiveConnLife
  · intro id' r hr
    rcases RecordTimeoutMgr.recordHashMap_upsertRecord hr with
      ⟨rfl, hv⟩ | ⟨r₀, hr₀, hv⟩
    · simp [enterConn, hv]
    · have hid' := h.recorded id' r₀ hr₀
      have hne' : id' ≠ id := by
        rintro rfl
        simp [hid] at hid'
      simpa [enterConn, makeConn, hne', hv] using hid'

theorem createConn (h : cc.Rep) (ctx : ConnCenterCtx) (env : CreateConnEnv)
    (now : ℤ) {sockFd : ℤ} (hfd : cc.connHashMap sockFd = none) :
    Creates cc sockFd (cc.createConn ctx env now sockFd) := by
  unfold ConnCenter.createConn
  cases hmade : env.made with
  | false => exact .failed h rfl rfl rfl rfl le_rfl
  | true =>
      simp only [Bool.not_true, Bool.false_eq_true, if_false]
      rcases cc.connIdSeq.alloc_cases with
        ⟨halloc, -⟩ | ⟨id, hrange, hfree, halloc⟩
      · rw [halloc]
        refine .failed ?_ rfl rfl rfl rfl (Nat.le_succ _)
        exact { h with unused := fun ref hle => h.unused ref (by
          have hle : cc.nextConn + 1 ≤ ref := hle
          omega) }
      · have hpos := SeqNum.one_le_of_range hrange
        have hvalid : id ≠ invalidSeqNum := by
          unfold invalidSeqNum
          omega
        rw [halloc]
        simp only [if_neg hvalid, h.connIdHashMap_of_free hfree,
          Option.isSome_none, Bool.or_false]
        cases env.initialized with
        | false =>
            simp only [Bool.not_false, if_true, h.discard hrange hfree hfd]
            have hinuse : ((cc.connIdSeq.take id hrange).free id).inuseSeqs =
                cc.connIdSeq.inuseSeqs := Finset.erase_insert hfree
            refine .failed ?_ rfl rfl hinuse rfl (Nat.le_succ _)
            exact { h with
              inuse := fun id' => hinuse ▸ h.inuse id'
              unused := fun ref hle => h.unused ref (by
                have hle : cc.nextConn + 1 ≤ ref := hle
                omega) }
        | true =>
            refine .created (h.enter ctx now hrange hfree hfd) hfree rfl rfl rfl ?_ rfl
            exact RecordTimeoutMgr.recordExist_upsertRecord cc.recordMgr now id
              cc.nextConn ctx.inactiveConnLife

theorem leave (h : cc.Rep) {ref : ℕ} {conn : BaseConn}
    (hconn : cc.conns ref = some conn) :
    ((cc.dropRecord conn.connId).clear ref conn).Rep := by
  rw [dropRecord_eq]
  obtain ⟨hid, hfd⟩ := h.filed ref conn hconn
  constructor
  · intro id ref' href'
    by_cases heq : id = conn.connId
    · simp [clear, heq] at href'
    · have href' : cc.connIdHashMap id = some ref' := by
        simpa [clear, heq] using href'
      obtain ⟨conn', hconn', hconnId'⟩ := h.of_id id ref' href'
      have hne : ref' ≠ ref := by
        rintro rfl
        rw [hconn, Option.some.injEq] at hconn'
        exact heq (by rw [← hconnId', hconn'])
      exact ⟨conn', by simpa [clear, hne] using hconn', hconnId'⟩
  · intro fd client hclient
    by_cases heq : fd = conn.sockFd
    · simp [clear, heq] at hclient
    · have hclient : cc.connHashMap fd = some client := by
        simpa [clear, heq] using hclient
      obtain ⟨ref', conn', href', hconn', hconnFd'⟩ := h.of_fd fd client hclient
      have hne : ref' ≠ ref := by
        rintro rfl
        rw [hconn, Option.some.injEq] at hconn'
        exact heq (by rw [← hconnFd', hconn'])
      exact ⟨ref', conn', href', by simpa [clear, hne] using hconn', hconnFd'⟩
  · intro ref' conn' hconn'
    by_cases heq : ref' = ref
    · simp [clear, heq] at hconn'
    · have hconn' : cc.conns ref' = some conn' := by
        simpa [clear, heq] using hconn'
      have hid' : conn'.connId ≠ conn.connId :=
        fun hid' => heq (h.ref_eq_of_connId hconn' hconn hid')
      have hfd' : conn'.sockFd ≠ conn.sockFd :=
        fun hfd' => heq (h.ref_eq_of_sockFd hconn' hconn hfd')
      simpa [clear, getConnBySockFd, hid', hfd'] using h.filed ref' conn' hconn'
  · intro id
    by_cases heq : id = conn.connId
    · simp [clear, heq]
    · simpa [clear, heq] using h.inuse id
  · intro ref' hle
    by_cases heq : ref' = ref
    · simp [clear, heq]
    · simpa [clear, heq] using h.unused ref' hle
  · exact h.index.removeRecord conn.connId
  · intro id r hr
    obtain ⟨hne, hr⟩ := RecordTimeoutMgr.recordHashMap_removeRecord hr
    simpa [clear, hne] using h.recorded id r hr

theorem destroyConn (h : cc.Rep) {ref : ℕ} {conn : BaseConn}
    (hconn : cc.conns ref = some conn) :
    cc.destroyConn conn.sockFd =
      some ((cc.dropRecord conn.connId).clear ref conn, some ref) := by
  have hfd := (h.filed ref conn hconn).2
  unfold ConnCenter.destroyConn
  cases hclient : cc.connHashMap conn.sockFd with
  | none => simp [getConnBySockFd, hclient] at hfd
  | some client =>
      have href : client.conn = some ref := by
        simpa [getConnBySockFd, hclient] using hfd
      simp only [href, hconn, Option.map_some]

theorem refresh (h : cc.Rep) (ctx : ConnCenterCtx) (now : ℤ) {connId : ℤ}
    {ref : ℕ} (href : cc.connIdHashMap connId = some ref) :
    (cc.refresh ctx now connId ref).Rep :=
  { h with
    index := h.index.upsertRecord now connId ref ctx.inactiveConnLife
    recorded := by
      intro id r hr
      rcases RecordTimeoutMgr.recordHashMap_upsertRecord hr with
        ⟨rfl, hv⟩ | ⟨r₀, hr₀, hv⟩
      · rw [hv]
        exact href
      · rw [← hv]
        exact h.recorded id r₀ hr₀ }

theorem putClient (h : cc.Rep) {ref : ℕ} {conn : BaseConn}
    (hconn : cc.conns ref = some conn) {client : ClientCtx}
    (hclient : client.conn = some ref) :
    (cc.putClient conn.sockFd client).Rep :=
  { h with
    of_fd := by
      intro fd client' hclient'
      by_cases heq : fd = conn.sockFd
      · subst heq
        obtain rfl : client = client' := by
          simpa [ConnCenter.putClient] using hclient'
        exact ⟨ref, conn, hclient, hconn, rfl⟩
      · exact h.of_fd fd client' (by
          simpa [ConnCenter.putClient, heq] using hclient')
    filed := by
      intro ref' conn' hconn'
      obtain ⟨hid', hfd'⟩ := h.filed ref' conn' hconn'
      refine ⟨hid', ?_⟩
      by_cases heq : conn'.sockFd = conn.sockFd
      · have href := h.ref_eq_of_sockFd hconn' hconn heq
        simp [ConnCenter.putClient, getConnBySockFd, heq, hclient, href]
      · simpa [ConnCenter.putClient, getConnBySockFd, heq] using hfd' }

/-- `UpdateConnStatus` keeps the connections as they are and drops no record. -/
theorem updateConnStatus (h : cc.Rep) (ctx : ConnCenterCtx) (now connId : ℤ)
    (received : Bool) :
    ∃ cc' calm, cc.updateConnStatus ctx now connId received = some (cc', calm) ∧
      cc'.Rep ∧ cc'.conns = cc.conns ∧ cc'.connIdHashMap = cc.connIdHashMap ∧
      cc'.connIdSeq = cc.connIdSeq ∧ cc'.nextConn = cc.nextConn ∧
      ∀ id, cc.recordMgr.recordExist id → cc'.recordMgr.recordExist id := by
  have hrecords : ∀ ref id, cc.recordMgr.recordExist id →
      (cc.recordMgr.upsertRecord now connId ref
        ctx.inactiveConnLife).recordExist id := by
    intro ref id hid
    rw [RecordTimeoutMgr.recordExist_upsertRecord, hid, Bool.or_true]
  unfold ConnCenter.updateConnStatus
  cases href : cc.connIdHashMap connId with
  | none => exact ⟨cc, true, rfl, h, rfl, rfl, rfl, rfl, fun _ hid => hid⟩
  | some ref =>
      cases received with
      | false =>
          exact ⟨_, true, rfl, h.refresh ctx now href, rfl, rfl, rfl, rfl,
            hrecords ref⟩
      | true =>
          obtain ⟨conn, hconn, rfl⟩ := h.of_id connId ref href
          have hfd := (h.filed ref conn hconn).2
          cases hclient : cc.connHashMap conn.sockFd with
          | none => simp [getConnBySockFd, hclient] at hfd
          | some client =>
              have hconn' : client.conn = some ref := by
                simpa [getConnBySockFd, hclient] using hfd
              have hput : ∀ startTime recvCount, (cc.putClient conn.sockFd
                  ⟨client.conn, startTime, recvCount⟩).Rep :=
                fun _ _ => h.putClient hconn hconn'
              simp only [if_true, hconn, hclient, Option.map_some,
                Option.getD_some]
              split_ifs
              · exact ⟨_, false, rfl, hput _ _, rfl, rfl, rfl, rfl,
                  fun _ hid => hid⟩
              · exact ⟨_, true, rfl, (hput _ _).refresh ctx now href, rfl, rfl,
                  rfl, rfl, hrecords ref⟩
              · exact ⟨_, true, rfl, (hput _ _).refresh ctx now href, rfl, rfl,
                  rfl, rfl, hrecords ref⟩

end Rep

end ConnCenter

end CommonComponent
