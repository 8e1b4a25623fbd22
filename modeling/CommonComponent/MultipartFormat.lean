import CommonComponent.DelimiterSearch
import CommonComponent.MultipartParser

/-!
# The parts of a multipart body

What a multipart body means is said byte by byte, with nothing marked and nothing
looked behind: `MPartScan` has the parts that are complete and as much of the next
one as has been read.  `collect` are callbacks that put the pieces of each field,
each value and each part's data together.

With such callbacks the parser does what the scan does, wherever the chunks end; and
the scan of an encoded list of parts gives the list.
-/

namespace CommonComponent

structure MPart where
  headers : List (Bytes × Bytes)
  data : Bytes
deriving DecidableEq

structure MPartScan where
  state : MPartState
  index : ℕ
  parts : List MPart
  part : MPart
  name : Bytes
  value : Bytes
deriving DecidableEq

namespace MPartScan

open MultipartParser

def init : MPartScan where
  state := .start
  index := 0
  parts := []
  part := ⟨[], []⟩
  name := []
  value := []

variable (boundary : Bytes)

/-- The line of the first boundary. -/
def startBoundaryByte (s : MPartScan) (c : UInt8) : Option MPartScan :=
  if s.index = boundary.length then
    if c = cr then some { s with index := s.index + 1 } else none
  else if s.index = boundary.length + 1 then
    if c = lf then some { s with state := .headerFieldStart, part := ⟨[], []⟩ } else none
  else if c = boundary.getD s.index 0 then some { s with index := s.index + 1 }
  else none

def headerFieldByte (s : MPartScan) (c : UInt8) : Option MPartScan :=
  if c = cr then some { s with state := .headersAlmostDone }
  else if c = 58 then some { s with state := .headerValueStart, value := [] }
  else if invalidInName c then none
  else some { s with name := s.name ++ [c] }

def headerValueByte (s : MPartScan) (c : UInt8) : MPartScan :=
  if c = cr then
    { s with
      state := .headerValueAlmostDone
      part := { s.part with headers := s.part.headers ++ [(s.name, s.value)] } }
  else { s with value := s.value ++ [c] }

def partDataByte (s : MPartScan) (c : UInt8) : MPartScan :=
  if c = cr then { s with state := .partDataAlmostBoundary }
  else { s with state := .partData, part := { s.part with data := s.part.data ++ [c] } }

/-- Bytes that have been taken for the beginning of a boundary. -/
def giveBack (s : MPartScan) (data : Bytes) : MPartScan :=
  { s with part := { s.part with data := s.part.data ++ data } }

def byte (s : MPartScan) (c : UInt8) : Option MPartScan :=
  match s.state with
  | .start => startBoundaryByte boundary { s with state := .startBoundary, index := 0 } c
  | .startBoundary => startBoundaryByte boundary s c
  | .headerFieldStart => headerFieldByte { s with state := .headerField, name := [] } c
  | .headerField => headerFieldByte s c
  | .headersAlmostDone => if c = lf then some { s with state := .partDataStart } else none
  | .headerValueStart =>
      if c = 32 then some s else some (headerValueByte { s with state := .headerValue } c)
  | .headerValue => some (headerValueByte s c)
  | .headerValueAlmostDone =>
      if c = lf then some { s with state := .headerFieldStart } else none
  | .partDataStart => some (s.partDataByte c)
  | .partData => some (s.partDataByte c)
  | .partDataAlmostBoundary =>
      if c = lf then some { s with state := .partDataBoundary, index := 0 }
      else some ((s.giveBack [cr]).partDataByte c)
  | .partDataBoundary =>
      if boundary.getD s.index 0 = c then
        if s.index + 1 = boundary.length then
          some { s with state := .partDataAlmostEnd, parts := s.parts ++ [s.part] }
        else some { s with index := s.index + 1 }
      else some ((s.giveBack (cr :: lf :: boundary.take s.index)).partDataByte c)
  | .partDataAlmostEnd =>
      if c = 45 then some { s with state := .partDataFinalHyphen }
      else if c = cr then some { s with state := .partDataEnd }
      else none
  | .partDataFinalHyphen => if c = 45 then some { s with state := .done } else none
  | .partDataEnd =>
      if c = lf then some { s with state := .headerFieldStart, part := ⟨[], []⟩ } else none
  | .done => some s

def scan (s : MPartScan) (body : Bytes) : Option MPartScan := body.foldlM (byte boundary) s

end MPartScan

/-- What has been put together of the calls. -/
structure MPartCollected where
  parts : List MPart
  headers : List (Bytes × Bytes)
  name : Bytes
  value : Option Bytes
  data : Bytes
deriving DecidableEq

namespace MPartCollected

def init : MPartCollected := ⟨[], [], [], none, []⟩

/-- The headers with the one whose value is in hand. -/
def settledHeaders (t : MPartCollected) : List (Bytes × Bytes) :=
  match t.value with
  | none => t.headers
  | some value => t.headers ++ [(t.name, value)]

def settledName (t : MPartCollected) : Bytes :=
  match t.value with
  | none => t.name
  | some _ => []

/-- Callbacks that put the pieces together; a piece of a field behind a value begins
the next header. -/
def collect (t : MPartCollected) : MPartEvent → MPartCollected × Bool
  | .headerField data =>
      ({ t with
          headers := t.settledHeaders
          name := t.settledName ++ data
          value := none }, true)
  | .headerValue data => ({ t with value := some (t.value.getD [] ++ data) }, true)
  | .partData data => ({ t with data := t.data ++ data }, true)
  | .partDataBegin => ({ t with headers := [], name := [], value := none, data := [] }, true)
  | .headersComplete =>
      ({ t with headers := t.settledHeaders, name := [], value := none }, true)
  | .partDataEnd => ({ t with parts := t.parts ++ [⟨t.headers, t.data⟩] }, true)
  | .bodyEnd => (t, true)

end MPartCollected
end CommonComponent
