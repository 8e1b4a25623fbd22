import CommonComponent.TcpThread

/-!
# Connection ids in sequence

Until the ids of a thread have been used up once, they are handed out one after the
other: the connection object that was made behind `ref` others has the id `ref + 1`,
and so an id names one object for good, whatever becomes of that.
-/

namespace CommonComponent

namespace ConnCenter

/-- The number of different ids. -/
def idCount : ℕ := 2 ^ 31 - 1

structure InSequence (cc : ConnCenter) : Prop where
  cursor : cc.connIdSeq.cursor = cc.nextConn
  inuse : ∀ id ∈ cc.connIdSeq.inuseSeqs, id ≤ cc.nextConn
  entered : ∀ id ref, cc.connIdHashMap id = some ref → id = ref + 1

/-- Objects are only added, and as long as the ids last they are in sequence. -/
structure Sequenced (cc cc' : ConnCenter) : Prop where
  le : cc.nextConn ≤ cc'.nextConn
  keeps : cc'.nextConn ≤ idCount → cc.InSequence → cc'.InSequence

variable {cc cc' cc'' : ConnCenter}

theorem InSequence.empty : ConnCenter.empty.InSequence where
  cursor := rfl
  inuse := fun id hid => by
    change id ∈ (∅ : Finset ℤ) at hid
    simp at hid
  entered := fun id ref hentered => by cases hentered

theorem Sequenced.refl (cc : ConnCenter) : Sequenced cc cc := ⟨le_rfl, fun _ h => h⟩

theorem Sequenced.trans (h : Sequenced cc cc') (h' : Sequenced cc' cc'') :
    Sequenced cc cc'' :=
  ⟨h.le.trans h'.le, fun hlast hcc => h'.keeps hlast (h.keeps (h'.le.trans hlast) hcc)⟩

/-- What only updates records and counters. -/
theorem Sequenced.of_same (hnext : cc'.nextConn = cc.nextConn)
    (hseq : cc'.connIdSeq = cc.connIdSeq) (hids : cc'.connIdHashMap = cc.connIdHashMap) :
    Sequenced cc cc' := by
  refine ⟨hnext.ge, fun _ h => ⟨?_, ?_, ?_⟩⟩
  · rw [hseq, hnext, h.cursor]
  · rw [hseq, hnext]
    exact h.inuse
  · rw [hids]
    exact h.entered

/-- The next id is the one behind the last. -/
theorem InSequence.alloc (h : cc.InSequence) (hroom : cc.nextConn + 1 ≤ idCount) :
    ∃ hrange, cc.connIdSeq.alloc =
      ((cc.nextConn + 1 : ℤ), cc.connIdSeq.take (cc.nextConn + 1 : ℤ) hrange) := by
  have hmax : i32SeqRange.seqMax = 2 ^ 31 - 1 := rfl
  have hmin : i32SeqRange.seqMin = 1 := rfl
  have hadvance : i32SeqRange.advance cc.connIdSeq.cursor = (cc.nextConn + 1 : ℤ) := by
    rw [SeqRange.advance, h.cursor, hmax, if_pos]
    unfold idCount at hroom
    omega
  have hnext : i32SeqRange.advance cc.connIdSeq.cursor ∉ cc.connIdSeq.inuseSeqs := by
    intro hmem
    have hle := h.inuse _ hmem
    omega
  have hfree : cc.connIdSeq.inuseSeqs.card ≠ i32SeqRange.totalCount := by
    have hsub : cc.connIdSeq.inuseSeqs ⊆ Finset.Icc (1 : ℤ) cc.nextConn := by
      intro id hid
      exact Finset.mem_Icc.mpr ⟨(cc.connIdSeq.inuse_range id hid).1, h.inuse id hid⟩
    have hcard := Finset.card_le_card hsub
    rw [Int.card_Icc] at hcard
    unfold SeqRange.totalCount
    rw [hmax, hmin]
    unfold idCount at hroom
    omega
  have halloc := SeqNum.alloc_of_advance_free hfree hnext
  simp only [hadvance] at halloc
  exact ⟨_, halloc⟩

theorem sequenced_createConn (cc : ConnCenter) (ctx : ConnCenterCtx) (env : CreateConnEnv)
    (now sockFd : ℤ) : Sequenced cc (cc.createConn ctx env now sockFd).1 := by
  by_cases hmade : env.made
  · have hnext : (cc.createConn ctx env now sockFd).1.nextConn = cc.nextConn + 1 := by
      unfold createConn
      simp only [hmade, Bool.not_true, Bool.false_eq_true, if_false]
      split_ifs
      · rfl
      · rw [dropRecord_eq]
        rfl
      · rfl
    refine ⟨by omega, fun hlast h => ?_⟩
    rw [hnext] at hlast
    obtain ⟨hrange, halloc⟩ := h.alloc hlast
    have hvalid : (cc.nextConn + 1 : ℤ) ≠ invalidSeqNum := by
      unfold invalidSeqNum
      omega
    have hbound : ∀ id ∈ insert (cc.nextConn + 1 : ℤ) cc.connIdSeq.inuseSeqs,
        id ≤ ((cc.nextConn + 1 : ℕ) : ℤ) := by
      intro id hid
      obtain rfl | hid := Finset.mem_insert.mp hid
      · push_cast
        exact le_rfl
      · have hle := h.inuse id hid
        push_cast
        omega
    unfold createConn
    simp only [hmade, halloc, hvalid, Bool.not_true, Bool.false_eq_true, if_false]
    split_ifs
    · rw [dropRecord_eq]
      refine ⟨?_, ?_, ?_⟩
      · simp [clear, makeConn, SeqNum.take, SeqNum.free]
      · intro id hid
        exact hbound id (Finset.mem_of_mem_erase hid)
      · intro id ref hentered
        simp only [clear, makeConn, Function.update_apply] at hentered
        split_ifs at hentered
        exact h.entered id ref hentered
    · refine ⟨?_, hbound, ?_⟩
      · simp [enterConn, makeConn, SeqNum.take]
      · intro id ref hentered
        simp only [enterConn, makeConn, Function.update_apply] at hentered
        split_ifs at hentered with hid
        · rw [← Option.some.inj hentered, hid]
        · exact h.entered id ref hentered
  · have hsame : (cc.createConn ctx env now sockFd).1 = cc := by
      unfold createConn
      simp [hmade]
    rw [hsame]
    exact .refl cc

theorem sequenced_destroyConn {sockFd : ℤ} {gone : Option ℕ}
    (hdestroy : cc.destroyConn sockFd = some (cc', gone)) : Sequenced cc cc' := by
  unfold destroyConn at hdestroy
  split at hdestroy
  · obtain ⟨rfl, -⟩ := Prod.mk.inj (Option.some.inj hdestroy)
    exact .refl cc
  · split at hdestroy
    · cases hdestroy
    · obtain ⟨conn, -, heq⟩ := Option.map_eq_some_iff.mp hdestroy
      obtain ⟨rfl, -⟩ := Prod.mk.inj heq
      rw [dropRecord_eq]
      refine ⟨le_rfl, fun _ h => ⟨h.cursor, ?_, ?_⟩⟩
      · intro id hid
        exact h.inuse id (Finset.mem_of_mem_erase hid)
      · intro id ref hentered
        simp only [clear, Function.update_apply] at hentered
        split_ifs at hentered
        exact h.entered id ref hentered

theorem sequenced_updateConnStatus {ctx : ConnCenterCtx} {now connId : ℤ}
    {received storm : Bool}
    (hupdate : cc.updateConnStatus ctx now connId received = some (cc', storm)) :
    Sequenced cc cc' := by
  unfold updateConnStatus at hupdate
  split at hupdate
  · obtain ⟨rfl, -⟩ := Prod.mk.inj (Option.some.inj hupdate)
    exact .refl cc
  · split_ifs at hupdate
    · obtain ⟨conn, -, heq⟩ := Option.map_eq_some_iff.mp hupdate
      dsimp only at heq
      split_ifs at heq
      all_goals
        obtain ⟨rfl, -⟩ := Prod.mk.inj heq
        exact .of_same rfl rfl rfl
    · obtain ⟨rfl, -⟩ := Prod.mk.inj (Option.some.inj hupdate)
      exact .of_same rfl rfl rfl

end ConnCenter

namespace TcpThread

open ConnCenter

variable {ctx : TcpThreadCtx} {s : TcpThread}

theorem sequenced_closeConn {cc : ConnCenter} (hsame : s.connCenter = cc) (ref : ℕ) :
    Sequenced cc (s.closeConn ref).connCenter := by
  subst hsame
  unfold closeConn
  split
  · exact .refl _
  · split
    · exact .refl _
    · next hdestroy => exact sequenced_destroyConn hdestroy

theorem sequenced_tellNext {cc : ConnCenter} (hsame : s.connCenter = cc) :
    Sequenced cc (s.tellNext ctx).connCenter := by
  unfold tellNext
  split
  · rw [hsame]
    exact .refl cc
  · split
    · split
      · exact sequenced_closeConn (by exact hsame) _
      · rw [← hsame]
        exact .refl _
    · split
      · exact hsame ▸ .refl _
      · exact hsame ▸ .refl _

theorem sequenced_tellLogics {cc : ConnCenter} (hsame : s.connCenter = cc)
    (call : LogicCall) (ref : ℕ) : Sequenced cc (s.tellLogics ctx call ref).connCenter :=
  sequenced_tellNext (s := s.pushLoop ctx call ref) hsame

theorem sequenced_openConn {cc : ConnCenter} (hsame : s.connCenter = cc)
    (env : CreateConnEnv) (now sockFd : ℤ) :
    Sequenced cc (s.createConn ctx env now sockFd).connCenter := by
  subst hsame
  have hcreate := sequenced_createConn s.connCenter ctx.connCenterCtx env now sockFd
  unfold createConn
  split
  · next heq =>
      rw [heq] at hcreate
      exact hcreate
  · next heq =>
      rw [heq] at hcreate
      exact hcreate.trans (sequenced_tellLogics (by rfl) _ _)

theorem sequenced_onAccept (ctx : TcpThreadCtx) (s : TcpThread) (stopping : Bool)
    (connCountLimit : ℤ) (env : CreateConnEnv) (now sockFd : ℤ) :
    Sequenced s.connCenter
      (s.onAccept ctx stopping connCountLimit env now sockFd).connCenter := by
  unfold onAccept onClientConnected
  split_ifs
  · exact .refl _
  · exact .refl _
  · split
    · exact sequenced_openConn rfl env now sockFd
    · dsimp only
      split_ifs
      · exact sequenced_closeConn rfl _
      · exact (sequenced_closeConn rfl _).trans (sequenced_openConn rfl env now sockFd)

theorem sequenced_readCallback (ctx : TcpThreadCtx) (s : TcpThread) (stopping : Bool)
    (now sockFd : ℤ) (hasData : Bool) :
    Sequenced s.connCenter (s.readCallback ctx stopping now sockFd hasData).connCenter := by
  unfold readCallback
  cases stopping with
  | true => exact .refl _
  | false =>
      simp only [Bool.false_eq_true, if_false]
      split
      · exact .refl _
      · split
        · exact .refl _
        · split
          · exact .refl _
          · next hupdate =>
              exact (sequenced_updateConnStatus hupdate).trans
                (sequenced_tellLogics (by rfl) _ _)
          · next hupdate =>
              cases hasData with
              | true =>
                  simp only [if_true]
                  exact (sequenced_updateConnStatus hupdate).trans
                    (sequenced_tellLogics (by rfl) _ _)
              | false => exact sequenced_updateConnStatus hupdate

theorem sequenced_sendToClient (ctx : TcpThreadCtx) (s : TcpThread) (now connId : ℤ)
    (added : Bool) :
    Sequenced s.connCenter (s.sendToClient ctx now connId added).connCenter := by
  unfold sendToClient
  split
  · exact .refl _
  · split_ifs
    · exact .refl _
    · split
      · exact .refl _
      · split
        · exact .refl _
        · split
          · exact .refl _
          · next hupdate => exact sequenced_updateConnStatus hupdate

theorem sequenced_closeClient (ctx : TcpThreadCtx) (s : TcpThread) (connId : ℤ) :
    Sequenced s.connCenter (s.closeClient ctx connId).connCenter := by
  unfold closeClient
  split
  · exact .refl _
  · exact sequenced_tellLogics (by rfl) _ _

/-- Whatever an io thread does, its ids stay in sequence. -/
theorem sequenced_step {s' : TcpThread} {a : TcpAction} (hstep : s.step ctx a = some s') :
    Sequenced s.connCenter s'.connCenter := by
  unfold step at hstep
  obtain ⟨-, hstep⟩ := Option.ite_none_left_eq_some.mp hstep
  cases a with
  | onAccept stopping connCountLimit env now sockFd =>
      obtain ⟨-, hnext⟩ := Option.ite_none_right_eq_some.mp hstep
      rw [← Option.some.inj hnext]
      exact sequenced_onAccept ctx s stopping connCountLimit env now sockFd
  | readCallback stopping now sockFd hasData =>
      obtain ⟨-, hnext⟩ := Option.ite_none_right_eq_some.mp hstep
      rw [← Option.some.inj hnext]
      exact sequenced_readCallback ctx s stopping now sockFd hasData
  | readMore sockFd =>
      obtain ⟨-, hnext⟩ := Option.ite_none_right_eq_some.mp hstep
      rw [← Option.some.inj hnext]
      split
      · exact .refl _
      · exact sequenced_tellLogics (by rfl) _ _
  | connClosed sockFd =>
      obtain ⟨-, hnext⟩ := Option.ite_none_right_eq_some.mp hstep
      rw [← Option.some.inj hnext]
      split
      · exact .refl _
      · exact sequenced_tellLogics (by rfl) _ _
  | sendToClient now connId added =>
      obtain ⟨-, hnext⟩ := Option.ite_none_right_eq_some.mp hstep
      rw [← Option.some.inj hnext]
      exact sequenced_sendToClient ctx s now connId added
  | closeClient connId =>
      obtain ⟨-, hnext⟩ := Option.ite_none_right_eq_some.mp hstep
      rw [← Option.some.inj hnext]
      exact sequenced_closeClient ctx s connId
  | onTimer now order =>
      obtain ⟨-, htake⟩ := Option.ite_none_right_eq_some.mp hstep
      obtain ⟨⟨expired, rest⟩, -, rfl⟩ := Option.map_eq_some_iff.mp htake
      exact .of_same rfl rfl rfl
  | nextTimeout =>
      dsimp only at hstep
      split at hstep
      · rw [← Option.some.inj hstep]
        exact sequenced_tellLogics (by rfl) _ _
      · rw [← Option.some.inj hstep]
        exact .refl _
      · cases hstep
  | logicReturns =>
      dsimp only at hstep
      split at hstep
      · cases hstep
      · rw [← Option.some.inj hstep]
        exact sequenced_tellNext rfl

end TcpThread

end CommonComponent
