import CommonComponent.LabelledRun
import CommonComponent.MultipartFormat
import Mathlib.Data.List.GetD

/-!
# Multipart bodies in chunks

`Ok` is what `lookbehind` and `index` keep for callbacks that return 0: a boundary that
has begun stands in `lookbehind` as far as it has been read, and what is written there
stays in the memory that `multipart_parser_init` has asked for.  With it the parser
follows the scan of the body, from chunk to chunk.
-/

namespace CommonComponent
namespace MultipartParser

variable {τ : Type*} {on : τ → MPartEvent → τ × Bool}

/-- Callbacks that return 0. -/
def Agreeing (on : τ → MPartEvent → τ × Bool) : Prop := ∀ t event, (on t event).2 = true

theorem emit_of_agreeing (hon : Agreeing on) (s : MPartRun τ) (event : MPartEvent)
    (go : MPartRun τ → Pass τ) :
    emit on s event go = go { s with told := (on s.told event).1 } := by
  simp [emit, hon s.told event]

/-! ## The memory behind the boundary -/

/-- A boundary that has begun can be handed over again as data; where the next byte is
compared or written it is inside the string and the memory. -/
structure Ok (p : MultipartParser) : Prop where
  room : p.lookbehind.length = p.multipartBoundary.length + 9
  boundary : p.multipartBoundary ≠ []
  started : p.state = .startBoundary → p.index ≤ p.multipartBoundary.length + 1
  almost : p.state = .partDataAlmostBoundary → p.lookbehind.take 1 = [cr]
  begun : p.state = .partDataBoundary → p.index < p.multipartBoundary.length ∧
    p.lookbehind.take (2 + p.index) = cr :: lf :: p.multipartBoundary.take p.index

theorem Ok.init {boundary : Bytes} (hne : boundary ≠ []) (memory : ℕ → UInt8) :
    (init boundary memory).Ok where
  room := by simp [MultipartParser.init]
  boundary := hne
  started := by
    intro h
    cases h
  almost := by
    intro h
    cases h
  begun := by
    intro h
    cases h

/-- In a state that looks behind nothing. -/
theorem Ok.of_written {p p' : MultipartParser} (h : p.Ok)
    (hmemory : p'.lookbehind.length = p.lookbehind.length)
    (hboundary : p'.multipartBoundary = p.multipartBoundary)
    (hstarted : p'.state ≠ .startBoundary)
    (halmost : p'.state ≠ .partDataAlmostBoundary) (hbegun : p'.state ≠ .partDataBoundary) :
    p'.Ok where
  room := by rw [hmemory, hboundary, h.room]
  boundary := hboundary ▸ h.boundary
  started := fun hstate => absurd hstate hstarted
  almost := fun hstate => absurd hstate halmost
  begun := fun hstate => absurd hstate hbegun

theorem Ok.of_state {p p' : MultipartParser} (h : p.Ok)
    (hmemory : p'.lookbehind = p.lookbehind)
    (hboundary : p'.multipartBoundary = p.multipartBoundary)
    (hstarted : p'.state ≠ .startBoundary)
    (halmost : p'.state ≠ .partDataAlmostBoundary) (hbegun : p'.state ≠ .partDataBoundary) :
    p'.Ok :=
  h.of_written (congrArg _ hmemory) hboundary hstarted halmost hbegun

/-- On the line of the first boundary. -/
theorem Ok.of_index {p : MultipartParser} (h : p.Ok) {index : ℕ}
    (hindex : index ≤ p.multipartBoundary.length + 1) :
    Ok { p with state := .startBoundary, index := index } where
  room := h.room
  boundary := h.boundary
  started := fun _ => hindex
  almost := by
    intro hstate
    cases hstate
  begun := by
    intro hstate
    cases hstate

theorem Ok.cr {p : MultipartParser} (h : p.Ok) :
    Ok { p with state := .partDataAlmostBoundary, lookbehind := p.lookbehind.set 0 cr } where
  room := by rw [List.length_set, h.room]
  boundary := h.boundary
  started := by
    intro hstate
    cases hstate
  almost := by
    intro _
    have hroom := h.room
    cases hmemory : p.lookbehind with
    | nil =>
        rw [hmemory, List.length_nil] at hroom
        omega
    | cons c rest => rfl
  begun := by
    intro hstate
    cases hstate

theorem Ok.lf {p : MultipartParser} (h : p.Ok) (hstate : p.state = .partDataAlmostBoundary) :
    Ok { p with
      state := .partDataBoundary
      index := 0
      lookbehind := p.lookbehind.set 1 lf } where
  room := by rw [List.length_set, h.room]
  boundary := h.boundary
  started := by
    intro hstate
    cases hstate
  almost := by
    intro hstate
    cases hstate
  begun := by
    intro _
    have hroom := h.room
    have halmost := h.almost hstate
    refine ⟨List.length_pos_iff.mpr h.boundary, ?_⟩
    match hmemory : p.lookbehind with
    | [] =>
        rw [hmemory, List.length_nil] at hroom
        omega
    | [c] =>
        rw [hmemory, List.length_singleton] at hroom
        omega
    | c :: c' :: rest =>
        rw [hmemory] at halmost
        obtain rfl : c = MultipartParser.cr := by simpa using halmost
        rfl

theorem Ok.matched {p : MultipartParser} (h : p.Ok) (hstate : p.state = .partDataBoundary)
    {c : UInt8} (hc : p.boundaryAt p.index = c)
    (hmore : p.index + 1 < p.multipartBoundary.length) :
    Ok { p with
      index := p.index + 1
      lookbehind := p.lookbehind.set (2 + p.index) c } where
  room := by rw [List.length_set, h.room]
  boundary := h.boundary
  started := by
    intro hstarted
    rw [hstate] at hstarted
    cases hstarted
  almost := by
    intro halmost
    rw [hstate] at halmost
    cases halmost
  begun := by
    intro _
    obtain ⟨hindex, hbegun⟩ := h.begun hstate
    have hroom := h.room
    refine ⟨hmore, ?_⟩
    dsimp only
    have hin : 2 + p.index < (p.lookbehind.set (2 + p.index) c).length := by
      rw [List.length_set]
      omega
    have hc' : p.multipartBoundary[p.index] = c := by
      rw [← hc, boundaryAt, List.getD_eq_getElem _ _ hindex]
    rw [← Nat.add_assoc, List.take_succ_eq_append_getElem hin, List.getElem_set_self,
      List.take_set_of_le (le_refl _), hbegun, List.take_succ_eq_append_getElem hindex, hc']
    rfl

theorem startBoundaryByte_ok (hon : Agreeing on) {s : MPartRun τ} (h : s.parser.Ok)
    (hstate : s.parser.state = .startBoundary) (marked : Bytes) (c : UInt8) :
    (startBoundaryByte on s marked c).1.parser.Ok := by
  have hindex := h.started hstate
  have hset : ∀ index, index ≤ s.parser.multipartBoundary.length + 1 →
      (setIndex s index).parser.Ok := by
    intro index hle
    have hset := h.of_index hle
    rwa [← hstate] at hset
  simp only [startBoundaryByte, emit_of_agreeing hon]
  split_ifs with hlength
  · exact h
  · exact hset _ (by omega)
  · exact h
  · exact h.of_state rfl rfl (by simp [goTo]) (by simp [goTo]) (by simp [goTo])
  · exact h
  · exact hset _ (by omega)

theorem headerFieldByte_ok (hon : Agreeing on) {s : MPartRun τ} (h : s.parser.Ok)
    (marked : Bytes) (c : UInt8) (isLast : Bool) :
    (headerFieldByte on s marked c isLast).1.parser.Ok := by
  simp only [headerFieldByte, emit_of_agreeing hon]
  split_ifs
  · exact h.of_state rfl rfl (by simp [goTo]) (by simp [goTo]) (by simp [goTo])
  · exact h.of_state rfl rfl (by simp [goTo]) (by simp [goTo]) (by simp [goTo])
  · exact h
  · exact h
  · exact h

theorem headerValueByte_ok (hon : Agreeing on) {s : MPartRun τ} (h : s.parser.Ok)
    (marked : Bytes) (c : UInt8) (isLast : Bool) :
    (headerValueByte on s marked c isLast).1.parser.Ok := by
  simp only [headerValueByte, emit_of_agreeing hon]
  split_ifs
  · exact h.of_state rfl rfl (by simp [goTo]) (by simp [goTo]) (by simp [goTo])
  · exact h
  · exact h

theorem partDataByte_ok (hon : Agreeing on) {s : MPartRun τ} (h : s.parser.Ok)
    (marked : Bytes) (c : UInt8) (isLast : Bool) :
    (partDataByte on s marked c isLast).1.parser.Ok := by
  simp only [partDataByte, emit_of_agreeing hon]
  split_ifs
  · exact h.cr
  · exact h
  · exact h

/-- Whatever the bytes, what has begun of a boundary stays readable, and every write
behind the boundary stays in the memory. -/
theorem byte_ok (hon : Agreeing on) {s : MPartRun τ} (h : s.parser.Ok) (marked : Bytes)
    (c : UInt8) (isLast : Bool) : (byte on s marked c isLast).1.parser.Ok := by
  have hgo : ∀ {state : MPartState} {told : τ}, state ≠ .startBoundary →
      state ≠ .partDataAlmostBoundary → state ≠ .partDataBoundary →
      (goTo { s with told := told } state).parser.Ok :=
    fun hstarted halmost hbegun => h.of_state rfl rfl hstarted halmost hbegun
  unfold byte
  cases hstate : s.parser.state with
  | start =>
      have hstart : (goTo (setIndex s 0) .startBoundary).parser.Ok :=
        h.of_index (Nat.zero_le _)
      exact startBoundaryByte_ok hon hstart rfl marked c
  | startBoundary => exact startBoundaryByte_ok hon h hstate marked c
  | headerFieldStart =>
      exact headerFieldByte_ok hon (hgo (by decide) (by decide) (by decide)) [] c isLast
  | headerField => exact headerFieldByte_ok hon h marked c isLast
  | headersAlmostDone =>
      dsimp only
      split_ifs
      · exact h
      · exact hgo (by decide) (by decide) (by decide)
  | headerValueStart =>
      dsimp only
      split_ifs
      · exact h
      · exact headerValueByte_ok hon (hgo (by decide) (by decide) (by decide)) [] c isLast
  | headerValue => exact headerValueByte_ok hon h marked c isLast
  | headerValueAlmostDone =>
      dsimp only
      split_ifs
      · exact h
      · exact hgo (by decide) (by decide) (by decide)
  | partDataStart =>
      simp only [emit_of_agreeing hon]
      exact partDataByte_ok hon (hgo (by decide) (by decide) (by decide)) [] c isLast
  | partData => exact partDataByte_ok hon h marked c isLast
  | partDataAlmostBoundary =>
      simp only [emit_of_agreeing hon]
      split_ifs
      · exact h.lf hstate
      · exact partDataByte_ok hon (hgo (by decide) (by decide) (by decide)) [] c isLast
  | partDataBoundary =>
      simp only [emit_of_agreeing hon]
      split_ifs with hc hlast
      · exact partDataByte_ok hon (hgo (by decide) (by decide) (by decide)) [] c isLast
      · refine h.of_written ?_ ?_ ?_ ?_ ?_
        all_goals simp [goTo, setIndex, lookBehind]
      · rw [not_not] at hc
        obtain ⟨hindex, -⟩ := h.begun hstate
        have hmore : s.parser.index + 1 < s.parser.multipartBoundary.length :=
          lt_of_le_of_ne hindex hlast
        exact h.matched hstate hc hmore
  | partDataAlmostEnd =>
      dsimp only
      split_ifs
      · exact hgo (by decide) (by decide) (by decide)
      · exact hgo (by decide) (by decide) (by decide)
      · exact h
  | partDataFinalHyphen =>
      simp only [emit_of_agreeing hon]
      split_ifs
      · exact hgo (by decide) (by decide) (by decide)
      · exact h
  | partDataEnd =>
      simp only [emit_of_agreeing hon]
      split_ifs
      · exact hgo (by decide) (by decide) (by decide)
      · exact h
  | done => exact h

/-- A byte of a chunk, or the beginning of another chunk, where nothing is marked. -/
inductive ByteAction
  | byte (c : UInt8) (isLast : Bool)
  | chunk

/-- The parser behind a byte; where it returns the caller goes on with another chunk. -/
def byteStep (on : τ → MPartEvent → τ × Bool) (s : MPartRun τ × Bytes) :
    ByteAction → Option (MPartRun τ × Bytes)
  | .byte c isLast =>
      let pass := byte on s.1 s.2 c isLast
      some (pass.1, pass.2.getD [])
  | .chunk => some (s.1, [])

/-- **The memory.**  For callbacks that return 0, whatever the bytes, also behind errors:
in every state that the parser comes to the next byte is compared and written inside the
boundary and the memory behind it, and what may be handed over from there is what was
read of the boundary, nothing that `malloc` has left. -/
theorem run_ok (hon : Agreeing on) {boundary : Bytes} (hne : boundary ≠ [])
    (memory : ℕ → UInt8) (told : τ) (actions : List ByteAction) :
    LabelledRun.Along (byteStep on) (fun s => s.1.parser.Ok) (fun _ _ _ => True)
      (⟨init boundary memory, told⟩, []) actions := by
  refine LabelledRun.along_of_inv (fun _ h => h) ?_ actions (.init hne memory)
  intro s a s' h hstep
  refine ⟨?_, trivial⟩
  cases a with
  | byte c isLast =>
      rw [byteStep, Option.some.injEq] at hstep
      subst hstep
      exact byte_ok hon h s.2 c isLast
  | chunk =>
      rw [byteStep, Option.some.injEq] at hstep
      subst hstep
      exact h

/-! ## The scan -/

open MPartCollected

/-- What the calls so far and the bytes since `mark` come to. -/
def InHand (p : MultipartParser) (t : MPartCollected) (marked : Bytes) (s : MPartScan) :
    Prop :=
  match s.state with
  | .startBoundary => p.index = s.index
  | .headerFieldStart =>
      t.settledHeaders = s.part.headers ∧ t.settledName = [] ∧ t.data = s.part.data
  | .headerField =>
      t.settledHeaders = s.part.headers ∧ t.settledName ++ marked = s.name ∧
        t.data = s.part.data
  | .headersAlmostDone => t.settledHeaders = s.part.headers ∧ t.data = s.part.data
  | .headerValueStart =>
      t.value = none ∧ t.headers = s.part.headers ∧ t.name = s.name ∧ s.value = [] ∧
        t.data = s.part.data
  | .headerValue =>
      t.headers = s.part.headers ∧ t.name = s.name ∧ t.value.getD [] ++ marked = s.value ∧
        t.data = s.part.data
  | .headerValueAlmostDone =>
      t.settledHeaders = s.part.headers ∧ t.settledName = [] ∧ t.data = s.part.data
  | .partDataStart => t.settledHeaders = s.part.headers ∧ t.data = s.part.data
  | .partData => t.headers = s.part.headers ∧ t.data ++ marked = s.part.data
  | .partDataAlmostBoundary => t.headers = s.part.headers ∧ t.data = s.part.data
  | .partDataBoundary =>
      p.index = s.index ∧ t.headers = s.part.headers ∧ t.data = s.part.data
  | _ => True

/-- The parser with what its callbacks have put together, and the scan. -/
structure Shows (boundary : Bytes) (r : MPartRun MPartCollected) (marked : Bytes)
    (s : MPartScan) : Prop where
  ok : r.parser.Ok
  boundary : r.parser.multipartBoundary = boundary
  state : r.parser.state = s.state
  parts : r.told.parts = s.parts
  inHand : InHand r.parser r.told marked s

theorem collect_agreeing : Agreeing collect := by
  intro t event
  cases event <;> rfl

/-- A boundary that has begun twice, with uncertain memory behind it. -/
theorem run_ok_begun_twice :
    ∃ s, LabelledRun.run (byteStep collect) (⟨init [45, 45, 120] fun _ => 7, .init⟩, [])
        (([45, 45, 120, 13, 10, 13, 10, 13, 10, 45, 13, 10, 45, 45] : Bytes).map fun c =>
          .byte c false) = some s ∧
      s.1.parser.state = .partDataBoundary ∧ s.1.parser.Ok := by
  obtain ⟨s, hs⟩ : ∃ s, LabelledRun.run (byteStep collect)
      (⟨init [45, 45, 120] fun _ => 7, .init⟩, [])
      (([45, 45, 120, 13, 10, 13, 10, 13, 10, 45, 13, 10, 45, 45] : Bytes).map fun c =>
        .byte c false) = some s := Option.isSome_iff_exists.mp (by decide +kernel)
  have hstate : (LabelledRun.run (byteStep collect)
      (⟨init [45, 45, 120] fun _ => 7, .init⟩, [])
      (([45, 45, 120, 13, 10, 13, 10, 13, 10, 45, 13, 10, 45, 45] : Bytes).map fun c =>
        .byte c false)).map (fun s => s.1.parser.state) = some .partDataBoundary := by
    decide +kernel
  rw [hs, Option.map_some, Option.some.injEq] at hstate
  exact ⟨s, hs, hstate, (run_ok collect_agreeing (by decide) (fun _ => 7) .init _).last hs⟩

/-- A byte of the parser against one of the scan.  The last byte of a chunk leaves
nothing marked. -/
def Matches (boundary : Bytes) (isLast : Bool) (pass : Pass MPartCollected) :
    Option MPartScan → Prop
  | none => pass.2 = none
  | some s => ∃ marked, pass.2 = some marked ∧
      Shows boundary pass.1 (if isLast then [] else marked) s

variable {boundary : Bytes} {r : MPartRun MPartCollected} {marked : Bytes} {s : MPartScan}

theorem partDataByte_matches (hok : r.parser.Ok)
    (hboundary : r.parser.multipartBoundary = boundary) (hstate : r.parser.state = .partData)
    (hparts : r.told.parts = s.parts) (hheaders : r.told.headers = s.part.headers)
    (hdata : r.told.data ++ marked = s.part.data) (c : UInt8) (isLast : Bool) :
    Matches boundary isLast (partDataByte collect r marked c isLast) (s.partDataByte c) := by
  have hok' := partDataByte_ok collect_agreeing hok marked c isLast
  revert hok'
  simp only [partDataByte, MPartScan.partDataByte, emit_of_agreeing collect_agreeing]
  split_ifs with hc hlast
  · intro hok'
    exact ⟨_, rfl, hok', hboundary, rfl, hparts, hheaders, hdata⟩
  · intro hok'
    refine ⟨_, rfl, hok', hboundary, hstate, hparts, hheaders, ?_⟩
    simp [hlast, collect, ← hdata]
  · intro hok'
    refine ⟨_, rfl, hok', hboundary, hstate, hparts, hheaders, ?_⟩
    simp [hlast, ← hdata]

theorem headerFieldByte_matches (hok : r.parser.Ok)
    (hboundary : r.parser.multipartBoundary = boundary)
    (hstate : r.parser.state = .headerField) (hscan : s.state = .headerField)
    (hparts : r.told.parts = s.parts) (hheaders : r.told.settledHeaders = s.part.headers)
    (hname : r.told.settledName ++ marked = s.name) (hdata : r.told.data = s.part.data)
    (c : UInt8) (isLast : Bool) :
    Matches boundary isLast (headerFieldByte collect r marked c isLast)
      (s.headerFieldByte c) := by
  have hok' := headerFieldByte_ok collect_agreeing hok marked c isLast
  revert hok'
  simp only [headerFieldByte, MPartScan.headerFieldByte, emit_of_agreeing collect_agreeing]
  split_ifs with hcr hcolon hinvalid hlast
  · intro hok'
    exact ⟨_, rfl, hok', hboundary, rfl, hparts, hheaders, hdata⟩
  · intro hok'
    exact ⟨_, rfl, hok', hboundary, rfl, hparts, rfl, hheaders, hname, rfl, hdata⟩
  · intro _
    rfl
  · intro hok'
    refine ⟨_, rfl, hok', hboundary, hstate.trans hscan.symm, hparts, ?_⟩
    simp only [InHand, hscan, collect, settledHeaders, settledName] at hname hheaders ⊢
    refine ⟨hheaders, ?_, hdata⟩
    simp [hlast, ← hname]
  · intro hok'
    refine ⟨_, rfl, hok', hboundary, hstate.trans hscan.symm, hparts, ?_⟩
    simp only [InHand, hscan]
    refine ⟨hheaders, ?_, hdata⟩
    simp [hlast, ← hname]

theorem headerValueByte_matches (hok : r.parser.Ok)
    (hboundary : r.parser.multipartBoundary = boundary)
    (hstate : r.parser.state = .headerValue) (hscan : s.state = .headerValue)
    (hparts : r.told.parts = s.parts) (hheaders : r.told.headers = s.part.headers)
    (hname : r.told.name = s.name) (hvalue : r.told.value.getD [] ++ marked = s.value)
    (hdata : r.told.data = s.part.data) (c : UInt8) (isLast : Bool) :
    Matches boundary isLast (headerValueByte collect r marked c isLast)
      (some (s.headerValueByte c)) := by
  have hok' := headerValueByte_ok collect_agreeing hok marked c isLast
  revert hok'
  simp only [headerValueByte, MPartScan.headerValueByte, emit_of_agreeing collect_agreeing]
  split_ifs with hcr hlast
  · intro hok'
    refine ⟨_, rfl, hok', hboundary, rfl, hparts, ?_, rfl, hdata⟩
    simp [collect, settledHeaders, goTo, hheaders, hname, hvalue]
  · intro hok'
    refine ⟨_, rfl, hok', hboundary, hstate.trans hscan.symm, hparts, ?_⟩
    simp only [InHand, hscan, collect]
    refine ⟨hheaders, hname, ?_, hdata⟩
    simp [hlast, ← hvalue]
  · intro hok'
    refine ⟨_, rfl, hok', hboundary, hstate.trans hscan.symm, hparts, ?_⟩
    simp only [InHand, hscan]
    refine ⟨hheaders, hname, ?_, hdata⟩
    simp [hlast, ← hvalue]

theorem startBoundaryByte_matches (hok : r.parser.Ok)
    (hboundary : r.parser.multipartBoundary = boundary)
    (hstate : r.parser.state = .startBoundary) (hscan : s.state = .startBoundary)
    (hparts : r.told.parts = s.parts) (hindex : r.parser.index = s.index) (c : UInt8)
    (isLast : Bool) :
    Matches boundary isLast (startBoundaryByte collect r marked c)
      (s.startBoundaryByte boundary c) := by
  have hok' := startBoundaryByte_ok collect_agreeing hok hstate marked c
  revert hok'
  simp only [startBoundaryByte, MPartScan.startBoundaryByte, boundaryAt, hboundary, hindex,
    emit_of_agreeing collect_agreeing, ne_eq, ite_not]
  split_ifs
  · intro hok'
    refine ⟨_, rfl, hok', hboundary, hstate.trans hscan.symm, hparts, ?_⟩
    simp [InHand, hscan, setIndex]
  · intro _
    rfl
  · intro hok'
    exact ⟨_, rfl, hok', hboundary, rfl, hparts, rfl, rfl, rfl⟩
  · intro _
    rfl
  · intro hok'
    refine ⟨_, rfl, hok', hboundary, hstate.trans hscan.symm, hparts, ?_⟩
    simp [InHand, hscan, setIndex]
  · intro _
    rfl

/-- **One byte.**  The parser goes on exactly where the scan does, and shows it. -/
theorem byte_matches (h : Shows boundary r marked s) (c : UInt8) (isLast : Bool) :
    Matches boundary isLast (byte collect r marked c isLast) (s.byte boundary c) := by
  obtain ⟨hok, hboundary, hstate, hparts, hhand⟩ := h
  have hok' := byte_ok collect_agreeing hok marked c isLast
  have hgo : ∀ (told : MPartCollected) (state : MPartState),
      state ≠ .startBoundary → state ≠ .partDataAlmostBoundary → state ≠ .partDataBoundary →
      (goTo { r with told := told } state).parser.Ok :=
    fun _ _ hstarted halmost hbegun => hok.of_state rfl rfl hstarted halmost hbegun
  revert hok'
  unfold byte MPartScan.byte
  rw [hstate]
  unfold InHand at hhand
  cases hscan : s.state with
  | start =>
      intro _
      have hstart : (goTo (setIndex r 0) .startBoundary).parser.Ok :=
        hok.of_index (Nat.zero_le _)
      exact startBoundaryByte_matches (s := { s with state := .startBoundary, index := 0 })
        hstart hboundary rfl rfl hparts rfl c isLast
  | startBoundary =>
      rw [hscan] at hhand hstate
      intro _
      exact startBoundaryByte_matches hok hboundary hstate hscan hparts hhand c isLast
  | headerFieldStart =>
      rw [hscan] at hhand
      obtain ⟨hheaders, hname, hdata⟩ := hhand
      intro _
      exact headerFieldByte_matches (s := { s with state := .headerField, name := [] })
        (hgo r.told .headerField (by decide) (by decide) (by decide)) hboundary rfl rfl
        hparts hheaders ((List.append_nil _).trans hname) hdata c isLast
  | headerField =>
      rw [hscan] at hhand hstate
      obtain ⟨hheaders, hname, hdata⟩ := hhand
      intro _
      exact headerFieldByte_matches hok hboundary hstate hscan hparts hheaders hname hdata c
        isLast
  | headersAlmostDone =>
      rw [hscan] at hhand
      simp only [ne_eq, ite_not]
      split_ifs
      · intro hok'
        exact ⟨_, rfl, hok', hboundary, rfl, hparts, hhand⟩
      · intro _
        rfl
  | headerValueStart =>
      rw [hscan] at hhand hstate
      obtain ⟨hnone, hheaders, hname, hvalue, hdata⟩ := hhand
      dsimp only
      split_ifs
      · intro hok'
        refine ⟨_, rfl, hok', hboundary, hstate.trans hscan.symm, hparts, ?_⟩
        simp only [InHand, hscan]
        exact ⟨hnone, hheaders, hname, hvalue, hdata⟩
      · intro _
        refine headerValueByte_matches (s := { s with state := .headerValue })
          (hgo r.told .headerValue (by decide) (by decide) (by decide)) hboundary rfl rfl
          hparts hheaders hname ?_ hdata c isLast
        simp [goTo, hnone, hvalue]
  | headerValue =>
      rw [hscan] at hhand hstate
      obtain ⟨hheaders, hname, hvalue, hdata⟩ := hhand
      intro _
      exact headerValueByte_matches hok hboundary hstate hscan hparts hheaders hname hvalue
        hdata c isLast
  | headerValueAlmostDone =>
      rw [hscan] at hhand
      simp only [ne_eq, ite_not]
      split_ifs
      · intro hok'
        exact ⟨_, rfl, hok', hboundary, rfl, hparts, hhand⟩
      · intro _
        rfl
  | partDataStart =>
      rw [hscan] at hhand
      obtain ⟨hheaders, hdata⟩ := hhand
      simp only [emit_of_agreeing collect_agreeing]
      intro _
      exact partDataByte_matches (hgo (collect r.told .headersComplete).1 .partData (by decide)
        (by decide) (by decide)) hboundary rfl hparts hheaders
        ((List.append_nil _).trans hdata) c isLast
  | partData =>
      rw [hscan] at hhand hstate
      intro _
      exact partDataByte_matches hok hboundary hstate hparts hhand.1 hhand.2 c isLast
  | partDataAlmostBoundary =>
      rw [hscan] at hhand hstate
      obtain ⟨hheaders, hdata⟩ := hhand
      simp only [emit_of_agreeing collect_agreeing]
      split_ifs
      · intro hok'
        exact ⟨_, rfl, hok', hboundary, rfl, hparts, rfl, hheaders, hdata⟩
      · intro _
        refine partDataByte_matches (s := s.giveBack [cr])
          (hgo (collect r.told (.partData (r.parser.lookbehind.take 1))).1 .partData (by decide)
            (by decide) (by decide)) hboundary rfl hparts hheaders ?_ c isLast
        simp [collect, goTo, MPartScan.giveBack, hok.almost hstate, hdata]
  | partDataBoundary =>
      rw [hscan] at hhand hstate
      obtain ⟨hindex, hheaders, hdata⟩ := hhand
      obtain ⟨-, hbegun⟩ := hok.begun hstate
      have hmatched : (setIndex (lookBehind r (2 + s.index) c) (s.index + 1)).parser.index =
          s.index + 1 := rfl
      have hlength : (setIndex (lookBehind r (2 + s.index) c)
          (s.index + 1)).parser.multipartBoundary = boundary := hboundary
      simp only [emit_of_agreeing collect_agreeing, boundaryAt, hboundary, hindex, hmatched,
        hlength, ne_eq, ite_not]
      split_ifs with hc hlast
      · intro hok'
        refine ⟨_, rfl, hok', hboundary, rfl, ?_, trivial⟩
        simp [collect, goTo, setIndex, lookBehind, hparts, hheaders, hdata]
      · intro hok'
        exact ⟨_, rfl, hok', hboundary, hstate, hparts, rfl, hheaders, hdata⟩
      · intro _
        refine partDataByte_matches (s := s.giveBack (cr :: lf :: boundary.take s.index))
          (hgo (collect r.told (.partData (r.parser.lookbehind.take (2 + s.index)))).1 .partData
            (by decide) (by decide) (by decide)) hboundary rfl hparts hheaders ?_ c isLast
        rw [hindex, hboundary] at hbegun
        simp [collect, goTo, MPartScan.giveBack, hbegun, hdata]
  | partDataAlmostEnd =>
      dsimp only
      split_ifs
      · intro hok'
        exact ⟨_, rfl, hok', hboundary, rfl, hparts, trivial⟩
      · intro hok'
        exact ⟨_, rfl, hok', hboundary, rfl, hparts, trivial⟩
      · intro _
        rfl
  | partDataFinalHyphen =>
      simp only [emit_of_agreeing collect_agreeing]
      split_ifs
      · intro hok'
        exact ⟨_, rfl, hok', hboundary, rfl, hparts, trivial⟩
      · intro _
        rfl
  | partDataEnd =>
      simp only [emit_of_agreeing collect_agreeing]
      split_ifs
      · intro hok'
        exact ⟨_, rfl, hok', hboundary, rfl, hparts, rfl, rfl, rfl⟩
      · intro _
        rfl
  | done =>
      rw [hscan] at hhand hstate
      intro hok'
      refine ⟨_, rfl, hok', hboundary, hstate.trans hscan.symm, hparts, ?_⟩
      simp only [InHand, hscan]

/-! ## Chunks -/

theorem executeLoop_le (s : MPartRun τ) (marked buf : Bytes) :
    (executeLoop on s marked buf).2 ≤ buf.length := by
  induction buf generalizing s marked with
  | nil => exact le_rfl
  | cons c rest ih =>
      rw [executeLoop]
      split
      next s' marked' _ => exact Nat.succ_le_succ (ih s' marked')
      next => exact Nat.zero_le _

theorem executeLoop_ok (hon : Agreeing on) {s : MPartRun τ} (h : s.parser.Ok)
    (marked buf : Bytes) : (executeLoop on s marked buf).1.parser.Ok := by
  induction buf generalizing s marked with
  | nil => exact h
  | cons c rest ih =>
      have hbyte := byte_ok hon h marked c rest.isEmpty
      rw [executeLoop]
      split
      next s' marked' heq =>
        rw [heq] at hbyte
        exact ih hbyte marked'
      next s' heq =>
        rw [heq] at hbyte
        exact hbyte

/-- A chunk against the scan of its bytes. -/
def Follows (boundary buf : Bytes) (result : MPartRun MPartCollected × ℕ) :
    Option MPartScan → Prop
  | none => result.2 < buf.length
  | some s => result.2 = buf.length ∧ Shows boundary result.1 [] s

theorem executeLoop_follows (h : Shows boundary r marked s) (buf : Bytes)
    (hmarked : buf = [] → marked = []) :
    Follows boundary buf (executeLoop collect r marked buf) (s.scan boundary buf) := by
  induction buf generalizing r marked s with
  | nil =>
      rw [hmarked rfl] at h
      exact ⟨rfl, h⟩
  | cons c rest ih =>
      have hbyte := byte_matches h c rest.isEmpty
      rw [executeLoop, MPartScan.scan, List.foldlM_cons]
      cases hscan : s.byte boundary c with
      | none =>
          rw [hscan] at hbyte
          generalize byte collect r marked c rest.isEmpty = pass at hbyte ⊢
          obtain ⟨r', marked'⟩ := pass
          obtain rfl : marked' = none := hbyte
          exact Nat.succ_pos _
      | some s' =>
          rw [hscan] at hbyte
          generalize byte collect r marked c rest.isEmpty = pass at hbyte ⊢
          obtain ⟨r', marked'⟩ := pass
          obtain ⟨marked', rfl, hshows⟩ := hbyte
          rw [Option.bind_eq_bind, Option.bind_some]
          have hrest : Follows boundary rest (executeLoop collect r' marked' rest)
              (s'.scan boundary rest) := by
            cases rest with
            | nil => exact ⟨rfl, hshows⟩
            | cons c' rest => exact ih hshows (by simp)
          rw [MPartScan.scan] at hrest
          cases hlater : rest.foldlM (MPartScan.byte boundary) s' with
          | none =>
              rw [hlater] at hrest
              exact Nat.succ_lt_succ hrest
          | some t =>
              rw [hlater] at hrest
              exact ⟨congrArg _ hrest.1, hrest.2⟩

theorem onMPartBody_le (s : MPartRun τ) (chunks : List Bytes) :
    (onMPartBody on s chunks).2 ≤ chunks.flatten.length := by
  induction chunks generalizing s with
  | nil => exact le_rfl
  | cons chunk chunks ih =>
      rw [List.flatten_cons, List.length_append]
      exact Nat.add_le_add (executeLoop_le s [] chunk) (ih _)

theorem onMPartBody_follows (h : Shows boundary r [] s) (chunks : List Bytes) :
    Follows boundary chunks.flatten (onMPartBody collect r chunks)
      (s.scan boundary chunks.flatten) := by
  induction chunks generalizing r s with
  | nil => exact ⟨rfl, h⟩
  | cons chunk chunks ih =>
      have hchunk := executeLoop_follows h chunk fun _ => rfl
      rw [List.flatten_cons, MPartScan.scan, List.foldlM_append]
      cases hscan : s.scan boundary chunk with
      | none =>
          rw [hscan] at hchunk
          rw [MPartScan.scan] at hscan
          rw [hscan]
          change (execute collect r chunk).2 + (onMPartBody collect _ chunks).2 < _
          rw [List.length_append]
          exact Nat.add_lt_add_of_lt_of_le hchunk (onMPartBody_le _ chunks)
      | some s' =>
          rw [hscan] at hchunk
          rw [MPartScan.scan] at hscan
          rw [hscan, Option.bind_eq_bind, Option.bind_some]
          have hrest := ih hchunk.2
          rw [MPartScan.scan] at hrest
          cases hlater : chunks.flatten.foldlM (MPartScan.byte boundary) s' with
          | none =>
              rw [hlater] at hrest
              change (execute collect r chunk).2 + (onMPartBody collect _ chunks).2 < _
              rw [List.length_append]
              exact Nat.add_lt_add_of_le_of_lt hchunk.1.le hrest
          | some t =>
              rw [hlater] at hrest
              refine ⟨?_, hrest.2⟩
              change (execute collect r chunk).2 + (onMPartBody collect _ chunks).2 = _
              rw [List.length_append]
              exact congrArg₂ _ hchunk.1 hrest.1

theorem shows_init (hne : boundary ≠ []) (memory : ℕ → UInt8) :
    Shows boundary ⟨init boundary memory, .init⟩ [] .init where
  ok := .init hne memory
  boundary := rfl
  state := rfl
  parts := rfl
  inHand := trivial

end MultipartParser
end CommonComponent
