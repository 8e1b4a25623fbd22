import CommonComponent.MultipartChunks

/-!
# Writing and reading a multipart body

A body is written as a boundary and, for each part, its header lines, an empty line,
its data and another boundary.  Where no part's data has a line that begins with the
boundary, the body comes back as the parts it was written from, however it is cut into
chunks and whatever follows the closing boundary.
-/

namespace CommonComponent

open DelimiterSearch MultipartParser StreamMachine

namespace MPart

/-- `\r\n`. -/
def newline : Bytes := [cr, lf]

def headerLine (header : Bytes × Bytes) : Bytes :=
  header.1 ++ ([58, 32] ++ (header.2 ++ newline))

def encode (boundary : Bytes) (part : MPart) : Bytes :=
  newline ++ (part.headers.flatMap headerLine ++ (newline ++ (part.data ++ (newline ++ boundary))))

/-- A body of some parts, with `--` behind its last boundary. -/
def encodeAll (boundary : Bytes) (parts : List MPart) : Bytes :=
  boundary ++ (parts.flatMap (encode boundary) ++ [45, 45])

/-- A part that can be written: names have letters and hyphens only, values are on one
line and do not begin with a space, and the delimiter does not stand in the data. -/
structure Writable (boundary : Bytes) (part : MPart) : Prop where
  names : ∀ header ∈ part.headers, ∀ c ∈ header.1, invalidInName c = false
  values : ∀ header ∈ part.headers, cr ∉ header.2 ∧ header.2.head? ≠ some 32
  data : ¬(cr :: lf :: boundary) <:+: part.data

end MPart

namespace MPartScan

variable {boundary : Bytes}

/-- The letters of the first boundary that are missing. -/
theorem reads_startBoundary {k : ℕ} (hk : k ≤ boundary.length) :
    Reads (byte boundary) (fun s => s.state = .startBoundary ∧ s.index = k ∧ s.parts = [])
      (boundary.drop k)
      (fun s => s.state = .startBoundary ∧ s.index = boundary.length ∧ s.parts = []) := by
  induction hleft : boundary.length - k generalizing k with
  | zero =>
      obtain rfl : k = boundary.length := by omega
      rw [List.drop_length]
      exact .nil fun _ h => h
  | succ left ih =>
      have hlt : k < boundary.length := by omega
      rw [List.drop_eq_getElem_cons hlt]
      refine .cons ?_ (ih (by omega) (by omega))
      rintro s ⟨hstate, hindex, hparts⟩
      refine ⟨{ s with index := k + 1 }, ?_, hstate, rfl, hparts⟩
      simp [byte, hstate, startBoundaryByte, hindex, List.getElem?_eq_getElem hlt,
        show k ≠ boundary.length by omega, show k ≠ boundary.length + 1 by omega]

theorem reads_boundary (hne : boundary ≠ []) :
    Reads (byte boundary) (· = init) boundary
      (fun s => s.state = .startBoundary ∧ s.index = boundary.length ∧ s.parts = []) := by
  have hread := reads_startBoundary (Nat.zero_le boundary.length)
  rintro s rfl
  obtain ⟨t, ht, hQ⟩ := hread { init with state := .startBoundary } ⟨rfl, rfl, rfl⟩
  refine ⟨t, ?_, hQ⟩
  rw [List.drop_zero] at ht
  cases boundary with
  | nil => exact absurd rfl hne
  | cons c rest =>
      rw [List.foldlM_cons] at ht ⊢
      exact ht

/-- At the beginning of a header line of a part. -/
def AtLine (parts : List MPart) (headers : List (Bytes × Bytes)) (s : MPartScan) : Prop :=
  s.state = .headerFieldStart ∧ s.parts = parts ∧ s.part = ⟨headers, []⟩

/-- The end of a boundary line behind which a part follows. -/
theorem reads_firstNewline :
    Reads (byte boundary)
      (fun s => s.state = .startBoundary ∧ s.index = boundary.length ∧ s.parts = [])
      MPart.newline (AtLine [] []) := by
  refine .cons (Q := fun s => s.state = .startBoundary ∧ s.index = boundary.length + 1 ∧
    s.parts = []) ?_ (.single ?_)
  · rintro s ⟨hstate, hindex, hparts⟩
    refine ⟨{ s with index := boundary.length + 1 }, ?_, hstate, rfl, hparts⟩
    simp [byte, hstate, startBoundaryByte, hindex]
  · rintro s ⟨hstate, hindex, hparts⟩
    refine ⟨{ s with state := .headerFieldStart, part := ⟨[], []⟩ }, ?_, rfl, hparts, rfl⟩
    simp [byte, hstate, startBoundaryByte, hindex]

/-! ## Header lines -/

def InName (parts : List MPart) (headers : List (Bytes × Bytes)) (name : Bytes)
    (s : MPartScan) : Prop :=
  s.state = .headerField ∧ s.parts = parts ∧ s.part = ⟨headers, []⟩ ∧ s.name = name

def InValue (parts : List MPart) (headers : List (Bytes × Bytes)) (name value : Bytes)
    (s : MPartScan) : Prop :=
  s.state = .headerValue ∧ s.parts = parts ∧ s.part = ⟨headers, []⟩ ∧ s.name = name ∧
    s.value = value

variable {parts : List MPart} {headers : List (Bytes × Bytes)}

theorem reads_name (name : Bytes) {rest : Bytes} (hrest : ∀ c ∈ rest, invalidInName c = false) :
    Reads (byte boundary) (InName parts headers name) rest
      (InName parts headers (name ++ rest)) := by
  induction rest generalizing name with
  | nil =>
      rw [List.append_nil]
      exact .nil fun _ h => h
  | cons c rest ih =>
      rw [List.forall_mem_cons] at hrest
      have hcr : c ≠ cr := by
        rintro rfl
        exact absurd hrest.1 (by decide)
      have hcolon : c ≠ 58 := by
        rintro rfl
        exact absurd hrest.1 (by decide)
      have hlater := ih (name ++ [c]) hrest.2
      rw [List.append_assoc] at hlater
      refine .cons ?_ hlater
      rintro s ⟨hstate, hparts, hpart, hname⟩
      refine ⟨{ s with name := name ++ [c] }, ?_, hstate, hparts, hpart, rfl⟩
      simp [byte, hstate, headerFieldByte, hcr, hcolon, hrest.1, hname]

theorem reads_value (name value : Bytes) {rest : Bytes} (hrest : cr ∉ rest) :
    Reads (byte boundary) (InValue parts headers name value) rest
      (InValue parts headers name (value ++ rest)) := by
  induction rest generalizing value with
  | nil =>
      rw [List.append_nil]
      exact .nil fun _ h => h
  | cons c rest ih =>
      rw [List.mem_cons, not_or] at hrest
      have hlater := ih (value ++ [c]) hrest.2
      rw [List.append_assoc] at hlater
      refine .cons ?_ hlater
      rintro s ⟨hstate, hparts, hpart, hname, hvalue⟩
      refine ⟨{ s with value := value ++ [c] }, ?_, hstate, hparts, hpart, hname, rfl⟩
      simp [byte, hstate, headerValueByte, Ne.symm hrest.1, hvalue]

/-- The first byte of a line is one of a name already. -/
theorem reads_line_of_name {line : Bytes} (hne : line ≠ []) {Q : MPartScan → Prop}
    (h : Reads (byte boundary) (InName parts headers []) line Q) :
    Reads (byte boundary) (AtLine parts headers) line Q := by
  rintro s ⟨hstate, hparts, hpart⟩
  obtain ⟨t, ht, hQ⟩ :=
    h { s with state := .headerField, name := [] } ⟨rfl, hparts, hpart, rfl⟩
  refine ⟨t, ?_, hQ⟩
  cases line with
  | nil => exact absurd rfl hne
  | cons c rest =>
      rw [List.foldlM_cons] at ht ⊢
      rw [← ht]
      simp [byte, hstate]

def AtValue (parts : List MPart) (headers : List (Bytes × Bytes)) (name : Bytes)
    (s : MPartScan) : Prop :=
  s.state = .headerValueStart ∧ s.parts = parts ∧ s.part = ⟨headers, []⟩ ∧ s.name = name ∧
    s.value = []

theorem reads_colon (name : Bytes) :
    Reads (byte boundary) (InName parts headers name) [58, 32] (AtValue parts headers name) := by
  refine .cons (Q := AtValue parts headers name) ?_ (.single ?_)
  · rintro s ⟨hstate, hparts, hpart, hname⟩
    refine ⟨{ s with state := .headerValueStart, value := [] }, ?_, rfl, hparts, hpart, hname,
      rfl⟩
    simp [byte, hstate, headerFieldByte, cr]
  · rintro s h
    refine ⟨s, ?_, h⟩
    simp [byte, h.1]

/-- The first byte of a value that is no space is one of the value already. -/
theorem reads_valueStart {name line : Bytes} (hne : line ≠ []) (hspace : line.head? ≠ some 32)
    {Q : MPartScan → Prop}
    (h : Reads (byte boundary) (InValue parts headers name []) line Q) :
    Reads (byte boundary) (AtValue parts headers name) line Q := by
  rintro s ⟨hstate, hparts, hpart, hname, hvalue⟩
  obtain ⟨t, ht, hQ⟩ := h { s with state := .headerValue } ⟨rfl, hparts, hpart, hname, hvalue⟩
  refine ⟨t, ?_, hQ⟩
  cases line with
  | nil => exact absurd rfl hne
  | cons c rest =>
      rw [List.head?_cons, ne_eq, Option.some.injEq] at hspace
      rw [List.foldlM_cons] at ht ⊢
      rw [← ht]
      simp [byte, hstate, hspace]

theorem reads_valueEnd (name value : Bytes) :
    Reads (byte boundary) (InValue parts headers name value) MPart.newline
      (AtLine parts (headers ++ [(name, value)])) := by
  refine .cons (Q := fun s => s.state = .headerValueAlmostDone ∧ s.parts = parts ∧
    s.part = ⟨headers ++ [(name, value)], []⟩) ?_ (.single ?_)
  · rintro s ⟨hstate, hparts, hpart, hname, hvalue⟩
    refine ⟨_, by simp only [byte, hstate]; rfl, ?_⟩
    simp [headerValueByte, hparts, hpart, hname, hvalue]
  · rintro s ⟨hstate, hparts, hpart⟩
    refine ⟨{ s with state := .headerFieldStart }, ?_, rfl, hparts, hpart⟩
    simp [byte, hstate]

theorem reads_headerLine {header : Bytes × Bytes}
    (hname : ∀ c ∈ header.1, invalidInName c = false)
    (hvalue : cr ∉ header.2 ∧ header.2.head? ≠ some 32) :
    Reads (byte boundary) (AtLine parts headers) (MPart.headerLine header)
      (AtLine parts (headers ++ [header])) := by
  have hstart : (header.2 ++ MPart.newline).head? ≠ some 32 := by
    cases hcase : header.2 with
    | nil => decide
    | cons c rest =>
        rw [hcase] at hvalue
        exact hvalue.2
  refine reads_line_of_name (by simp [MPart.headerLine]) ?_
  refine (reads_name [] hname).append ((reads_colon _).append ?_)
  refine reads_valueStart (by simp [MPart.newline]) hstart ?_
  exact (reads_value header.1 [] hvalue.1).append (reads_valueEnd header.1 header.2)

theorem reads_headers (headers : List (Bytes × Bytes)) {later : List (Bytes × Bytes)}
    (hnames : ∀ header ∈ later, ∀ c ∈ header.1, invalidInName c = false)
    (hvalues : ∀ header ∈ later, cr ∉ header.2 ∧ header.2.head? ≠ some 32) :
    Reads (byte boundary) (AtLine parts headers) (later.flatMap MPart.headerLine)
      (AtLine parts (headers ++ later)) := by
  induction later generalizing headers with
  | nil =>
      rw [List.append_nil]
      exact .nil fun _ h => h
  | cons header later ih =>
      rw [List.forall_mem_cons] at hnames hvalues
      have hlater := ih (headers ++ [header]) hnames.2 hvalues.2
      rw [List.append_assoc] at hlater
      rw [List.flatMap_cons]
      exact (reads_headerLine hnames.1 hvalues.1).append hlater

/-! ## Data -/

/-- How much of the delimiter the scan remembers. -/
def Remembers (s : MPartScan) : ℕ → Prop
  | 0 => s.state = .partDataStart ∨ s.state = .partData
  | 1 => s.state = .partDataAlmostBoundary
  | k + 2 => s.state = .partDataBoundary ∧ s.index = k

/-- Behind the empty line, with some of the data read. -/
structure Searching (parts : List MPart) (headers : List (Bytes × Bytes)) (k : ℕ) (out : Bytes)
    (s : MPartScan) : Prop where
  parts : s.parts = parts
  part : s.part = ⟨headers, out⟩
  remembers : s.Remembers k

/-- Behind the boundary that ends a part. -/
def Behind (parts : List MPart) (s : MPartScan) : Prop :=
  s.state = .partDataAlmostEnd ∧ s.parts = parts

/-- A letter of the data has led to where the search says. -/
def NextOf (boundary : Bytes) (parts : List MPart) (headers : List (Bytes × Bytes)) (k : ℕ)
    (out : Bytes) (c : UInt8) (s : MPartScan) : Prop :=
  let next := step (cr :: lf :: boundary) k c
  if next.1 = (cr :: lf :: boundary).length then
    Behind (parts ++ [⟨headers, out ++ next.2⟩]) s
  else Searching parts headers next.1 (out ++ next.2) s

variable {s : MPartScan} {out : Bytes}

/-- A letter that does not go on with the delimiter, behind what is given back. -/
theorem partDataByte_next {k : ℕ} {held : Bytes} (hparts : s.parts = parts)
    (hpart : s.part = ⟨headers, out ++ held⟩) (hheld : (cr :: lf :: boundary).take k = held)
    {c : UInt8} (hother : (cr :: lf :: boundary)[k]? ≠ some c) :
    NextOf boundary parts headers k out c (s.partDataByte c) := by
  have hnotOne : ¬1 = (cr :: lf :: boundary).length := by simp
  have hnotZero : ¬0 = (cr :: lf :: boundary).length := by simp
  unfold NextOf step partDataByte
  rw [if_neg hother, List.head?_cons, hheld]
  by_cases hc : c = cr
  · subst hc
    rw [if_pos rfl, if_pos rfl]
    dsimp only
    rw [if_neg hnotOne]
    exact ⟨hparts, hpart, rfl⟩
  · rw [if_neg hc, if_neg fun h => hc (Option.some.inj h).symm]
    dsimp only
    rw [if_neg hnotZero]
    refine ⟨hparts, ?_, .inr rfl⟩
    rw [hpart, ← List.append_assoc]

theorem byte_next_data (h : Searching parts headers 0 out s) (c : UInt8) :
    ∃ s', byte boundary s c = some s' ∧ NextOf boundary parts headers 0 out c s' := by
  have hbyte : byte boundary s c = some (s.partDataByte c) := by
    obtain hstate | hstate := h.remembers
    · simp only [byte, hstate]
    · simp only [byte, hstate]
  refine ⟨_, hbyte, ?_⟩
  by_cases hc : c = cr
  · subst hc
    have hnotOne : ¬1 = (cr :: lf :: boundary).length := by simp
    have hstep : step (cr :: lf :: boundary) 0 cr = (1, []) := by simp [step]
    unfold NextOf
    rw [hstep]
    dsimp only
    rw [if_neg hnotOne, List.append_nil]
    refine ⟨?_, ?_, ?_⟩
    · simp [partDataByte, h.parts]
    · simp [partDataByte, h.part]
    · simp [partDataByte, Remembers]
  · refine partDataByte_next h.parts ?_ rfl ?_
    · simpa using h.part
    · simpa using Ne.symm hc

theorem byte_next_almost (hne : boundary ≠ []) (h : Searching parts headers 1 out s)
    (c : UInt8) :
    ∃ s', byte boundary s c = some s' ∧ NextOf boundary parts headers 1 out c s' := by
  have hstate : s.state = .partDataAlmostBoundary := h.remembers
  by_cases hc : c = lf
  · have hnotTwo : ¬2 = (cr :: lf :: boundary).length := by simp [hne]
    have hstep : step (cr :: lf :: boundary) 1 lf = (2, []) := by simp [step]
    subst hc
    refine ⟨{ s with state := .partDataBoundary, index := 0 }, ?_, ?_⟩
    · simp only [byte, hstate, if_true]
    · unfold NextOf
      rw [hstep]
      dsimp only
      rw [if_neg hnotTwo, List.append_nil]
      exact ⟨h.parts, h.part, rfl, rfl⟩
  · have hparts : (s.giveBack [cr]).parts = parts := h.parts
    refine ⟨(s.giveBack [cr]).partDataByte c, ?_, partDataByte_next hparts ?_ rfl ?_⟩
    · simp only [byte, hstate, if_neg hc]
    · simp [giveBack, h.part]
    · simpa using Ne.symm hc

theorem byte_next_boundary {k : ℕ} (hk : k < boundary.length)
    (h : Searching parts headers (k + 2) out s) (c : UInt8) :
    ∃ s', byte boundary s c = some s' ∧ NextOf boundary parts headers (k + 2) out c s' := by
  obtain ⟨hstate, hindex⟩ := h.remembers
  have hget : boundary.getD k 0 = boundary[k] := List.getD_eq_getElem _ _ hk
  by_cases hc : boundary[k] = c
  · subst hc
    have hin : k + 2 < (cr :: lf :: boundary).length := by simpa using hk
    have hstep : step (cr :: lf :: boundary) (k + 2) boundary[k] = (k + 3, []) :=
      step_expected hin
    by_cases hlast : k + 1 = boundary.length
    · have hall : k + 3 = (cr :: lf :: boundary).length := by
        simp [← hlast]
      refine ⟨{ s with state := .partDataAlmostEnd, parts := s.parts ++ [s.part] }, ?_, ?_⟩
      · simp only [byte, hstate, hindex, hget, hlast, if_true]
      · unfold NextOf
        rw [hstep]
        dsimp only
        rw [if_pos hall, List.append_nil]
        exact ⟨rfl, by rw [h.parts, h.part]⟩
    · have hmore : ¬k + 3 = (cr :: lf :: boundary).length := by
        simpa using hlast
      refine ⟨{ s with index := s.index + 1 }, ?_, ?_⟩
      · simp only [byte, hstate, hget, hindex, hlast, if_true, if_false]
      · unfold NextOf
        rw [hstep]
        dsimp only
        rw [if_neg hmore, List.append_nil]
        exact ⟨h.parts, h.part, hstate, by rw [hindex]⟩
  · have hparts : (s.giveBack (cr :: lf :: boundary.take k)).parts = parts := h.parts
    refine ⟨(s.giveBack (cr :: lf :: boundary.take k)).partDataByte c, ?_,
      partDataByte_next hparts ?_ rfl ?_⟩
    · simp only [byte, hstate, hindex, hget, if_neg hc]
    · simp [giveBack, h.part]
    · simpa [List.getElem?_eq_getElem hk] using hc

/-- The scan searches for a line that begins with the boundary. -/
theorem follows_delimiter (parts : List MPart) (headers : List (Bytes × Bytes))
    (hne : boundary ≠ []) :
    Follows (cr :: lf :: boundary) (byte boundary) (Searching parts headers)
      (fun out => Behind (parts ++ [⟨headers, out⟩])) where
  next := by
    intro k out s c hk h
    rcases k with _ | _ | k
    · exact byte_next_data h c
    · exact byte_next_almost hne h c
    · exact byte_next_boundary (by simpa using hk) h c

/-! ## Parts -/

theorem reads_emptyLine :
    Reads (byte boundary) (AtLine parts headers) MPart.newline
      (Searching parts headers 0 []) := by
  refine .cons (Q := fun s => s.state = .headersAlmostDone ∧ s.parts = parts ∧
    s.part = ⟨headers, []⟩) ?_ (.single ?_)
  · rintro s ⟨hstate, hparts, hpart⟩
    refine ⟨{ s with state := .headersAlmostDone, name := [] }, ?_, rfl, hparts, hpart⟩
    simp [byte, hstate, headerFieldByte]
  · rintro s ⟨hstate, hparts, hpart⟩
    refine ⟨{ s with state := .partDataStart }, ?_, hparts, hpart, .inl rfl⟩
    simp [byte, hstate]

theorem reads_nextNewline :
    Reads (byte boundary) (Behind parts) MPart.newline (AtLine parts []) := by
  refine .cons (Q := fun s => s.state = .partDataEnd ∧ s.parts = parts) ?_ (.single ?_)
  · rintro s ⟨hstate, hparts⟩
    refine ⟨{ s with state := .partDataEnd }, ?_, rfl, hparts⟩
    simp [byte, hstate, cr]
  · rintro s ⟨hstate, hparts⟩
    refine ⟨{ s with state := .headerFieldStart, part := ⟨[], []⟩ }, ?_, rfl, hparts, rfl⟩
    simp [byte, hstate]

/-- A part, from its first header line to behind the next boundary. -/
theorem reads_part (hne : boundary ≠ []) (hcr : cr ∉ boundary) {part : MPart}
    (h : part.Writable boundary) :
    Reads (byte boundary) (AtLine parts [])
      (part.headers.flatMap MPart.headerLine ++
        (MPart.newline ++ (part.data ++ (MPart.newline ++ boundary))))
      (Behind (parts ++ [part])) := by
  have hfirst : cr ∉ lf :: boundary := by
    rw [List.mem_cons, not_or]
    exact ⟨by decide, hcr⟩
  have hdata := (follows_delimiter parts part.headers hne).finds hfirst h.data []
  exact (reads_headers [] h.names h.values).append (reads_emptyLine.append hdata)

theorem reads_parts (parts : List MPart) (hne : boundary ≠ []) (hcr : cr ∉ boundary)
    {later : List MPart} (h : ∀ part ∈ later, part.Writable boundary) :
    Reads (byte boundary) (Behind parts) (later.flatMap (MPart.encode boundary))
      (Behind (parts ++ later)) := by
  induction later generalizing parts with
  | nil =>
      rw [List.append_nil]
      exact .nil fun _ h => h
  | cons part later ih =>
      rw [List.forall_mem_cons] at h
      have hlater := ih (parts ++ [part]) h.2
      rw [List.append_assoc] at hlater
      rw [List.flatMap_cons]
      exact (reads_nextNewline.append (reads_part hne hcr h.1)).append hlater

theorem reads_end :
    Reads (byte boundary) (Behind parts) [45, 45]
      (fun s => s.state = .done ∧ s.parts = parts) := by
  refine .cons (Q := fun s => s.state = .partDataFinalHyphen ∧ s.parts = parts) ?_ (.single ?_)
  · rintro s ⟨hstate, hparts⟩
    refine ⟨{ s with state := .partDataFinalHyphen }, ?_, rfl, hparts⟩
    simp [byte, hstate]
  · rintro s ⟨hstate, hparts⟩
    refine ⟨{ s with state := .done }, ?_, rfl, hparts⟩
    simp [byte, hstate]

theorem reads_epilogue (epilogue : Bytes) :
    Reads (byte boundary) (fun s => s.state = .done ∧ s.parts = parts) epilogue
      (fun s => s.state = .done ∧ s.parts = parts) := by
  induction epilogue with
  | nil => exact .nil fun _ h => h
  | cons c rest ih =>
      refine .cons ?_ ih
      intro s h
      refine ⟨s, ?_, h⟩
      simp [byte, h.1]

/-- **A written body**, with anything behind it. -/
theorem scan_encodeAll (hne : boundary ≠ []) (hcr : cr ∉ boundary) {part : MPart}
    {later : List MPart} (h : ∀ p ∈ part :: later, p.Writable boundary) (epilogue : Bytes) :
    ∃ s, init.scan boundary (MPart.encodeAll boundary (part :: later) ++ epilogue) = some s ∧
      s.state = .done ∧ s.parts = part :: later := by
  rw [List.forall_mem_cons] at h
  have hfirst : Reads (byte boundary) (· = init)
      (boundary ++ MPart.encode boundary part) (Behind [part]) :=
    (reads_boundary hne).append (reads_firstNewline.append (reads_part hne hcr h.1))
  have hall := ((hfirst.append (reads_parts [part] hne hcr h.2)).append reads_end).append
    (reads_epilogue epilogue)
  obtain ⟨s, hs, hdone⟩ := hall init rfl
  refine ⟨s, ?_, hdone⟩
  rw [scan, ← hs, MPart.encodeAll, List.flatMap_cons]
  simp only [List.append_assoc]

end MPartScan

namespace MultipartParser

open MPartCollected

variable {boundary : Bytes}

/-- **Chunks.**  Wherever the chunks of a body end, the parser takes all of it or not as
it does in one piece; if it does, it has collected the same parts and stands in the same
state, whatever was in the memory behind the boundary. -/
theorem onMPartBody_chunking (hne : boundary ≠ []) (memory memory' : ℕ → UInt8)
    (chunks : List Bytes) :
    let body := chunks.flatten
    let inChunks := onMPartBody collect ⟨init boundary memory, .init⟩ chunks
    let inOne := onMPartBody collect ⟨init boundary memory', .init⟩ [body]
    (inChunks.2 = body.length ↔ inOne.2 = body.length) ∧
      (inChunks.2 = body.length → inChunks.1.told.parts = inOne.1.told.parts ∧
        inChunks.1.parser.state = inOne.1.parser.state) := by
  intro body inChunks inOne
  have hchunks := onMPartBody_follows (shows_init hne memory) chunks
  have hone := onMPartBody_follows (shows_init hne memory') [body]
  rw [List.flatten_singleton] at hone
  cases hscan : MPartScan.init.scan boundary chunks.flatten with
  | none =>
      rw [hscan] at hchunks hone
      have hless : inChunks.2 < body.length := hchunks
      have hless' : inOne.2 < body.length := hone
      exact ⟨⟨fun h => absurd h hless.ne, fun h => absurd h hless'.ne⟩,
        fun h => absurd h hless.ne⟩
  | some s =>
      rw [hscan] at hchunks hone
      obtain ⟨hall, hshows⟩ := hchunks
      obtain ⟨hall', hshows'⟩ := hone
      refine ⟨⟨fun _ => hall', fun _ => hall⟩, fun _ => ⟨?_, ?_⟩⟩
      · exact hshows.parts.trans hshows'.parts.symm
      · exact hshows.state.trans hshows'.state.symm

/-- A part that is cut inside its header, its data and both boundaries. -/
def cutBody : List Bytes :=
  [[45, 45], [120, 13, 10, 78], [58, 32, 118, 13], [10, 13, 10, 97, 13], [10, 45, 98, 13, 10, 45],
    [45, 120, 45, 45]]

theorem onMPartBody_chunking_cut :
    (onMPartBody collect ⟨init [45, 45, 120] fun _ => 0, .init⟩ cutBody).1.told.parts =
      (onMPartBody collect ⟨init [45, 45, 120] fun _ => 1, .init⟩
        [cutBody.flatten]).1.told.parts :=
  ((onMPartBody_chunking (by decide) (fun _ => 0) (fun _ => 1) cutBody).2
    (by decide +kernel)).1

/-- **Round trip.**  A written body comes back as the parts it was written from, however
it is cut into chunks and whatever follows it. -/
theorem onMPartBody_encodeAll (hne : boundary ≠ []) (hcr : cr ∉ boundary)
    (memory : ℕ → UInt8) {part : MPart} {later : List MPart}
    (hparts : ∀ p ∈ part :: later, p.Writable boundary) (epilogue : Bytes)
    {chunks : List Bytes}
    (hchunks : chunks.flatten = MPart.encodeAll boundary (part :: later) ++ epilogue) :
    let result := onMPartBody collect ⟨init boundary memory, .init⟩ chunks
    result.2 = chunks.flatten.length ∧ result.1.parser.state = .done ∧
      result.1.told.parts = part :: later := by
  intro result
  obtain ⟨s, hs, hdone, hread⟩ := MPartScan.scan_encodeAll hne hcr hparts epilogue
  have hfollows := onMPartBody_follows (shows_init hne memory) chunks
  rw [hchunks, hs, ← hchunks] at hfollows
  obtain ⟨hall, hshows⟩ := hfollows
  exact ⟨hall, hshows.state.trans hdone, hshows.parts.trans hread⟩

/-- The same body with something behind it; its data has a beginning of the boundary. -/
theorem onMPartBody_encodeAll_cut :
    let result := onMPartBody collect ⟨init [45, 45, 120] fun _ => 0, .init⟩ (cutBody ++ [[1]])
    result.2 = (cutBody ++ [[1]]).flatten.length ∧ result.1.parser.state = .done ∧
      result.1.told.parts = [⟨[([78], [118])], [97, 13, 10, 45, 98]⟩] := by
  refine onMPartBody_encodeAll (by decide) (by decide) (fun _ => 0) ?_ [1] (by decide +kernel)
  intro p hp
  obtain rfl := List.mem_singleton.mp hp
  exact ⟨by decide +kernel, by decide +kernel, by decide +kernel⟩

end MultipartParser
end CommonComponent
