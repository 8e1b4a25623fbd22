import CommonComponent.ProtoMsgCodec
import Mathlib.Tactic

/-!
# The multipart parser

`multipart_parser_execute` goes through a chunk byte by byte and calls back with the
pieces of header fields, header values and part data that it has marked.  What may
turn out to be the beginning of a boundary is kept in `lookbehind` until it is known,
and it is handed over from there where it was data after all.

The callbacks are a parameter, with the state they work on; one that does not return
0 makes the parser return.
-/

namespace CommonComponent

inductive MPartState
  | start
  | startBoundary
  | headerFieldStart
  | headerField
  | headersAlmostDone
  | headerValueStart
  | headerValue
  | headerValueAlmostDone
  | partDataStart
  | partData
  | partDataAlmostBoundary
  | partDataBoundary
  | partDataAlmostEnd
  | partDataEnd
  | partDataFinalHyphen
  | done
deriving DecidableEq

/-- The callbacks of `multipart_parser_settings`. -/
inductive MPartEvent
  | headerField (data : Bytes)
  | headerValue (data : Bytes)
  | partData (data : Bytes)
  | partDataBegin
  | headersComplete
  | partDataEnd
  | bodyEnd
deriving DecidableEq

/-- `boundary_length` is the length of `multipartBoundary`, a C string, and
`lookbehind` the memory behind it. -/
structure MultipartParser where
  multipartBoundary : Bytes
  index : ℕ
  state : MPartState
  lookbehind : Bytes
deriving DecidableEq

/-- The parser with the state of its callbacks. -/
structure MPartRun (τ : Type*) where
  parser : MultipartParser
  told : τ

namespace MultipartParser

def lf : UInt8 := 10
def cr : UInt8 := 13

/-- `multipart_parser_init`; `memory` is what `malloc` has given for `lookbehind`. -/
def init (boundary : Bytes) (memory : ℕ → UInt8) : MultipartParser where
  multipartBoundary := boundary
  index := 0
  state := .start
  lookbehind := (List.range (boundary.length + 9)).map memory

/-- `multipart_boundary[index]`, of a C string. -/
def boundaryAt (p : MultipartParser) (index : ℕ) : UInt8 :=
  p.multipartBoundary.getD index 0

variable {τ : Type*} (on : τ → MPartEvent → τ × Bool)

/-- What becomes of a byte: the bytes from `mark` up to behind it where the loop goes
on, nothing where the parser returns. -/
abbrev Pass (τ : Type*) := MPartRun τ × Option Bytes

/-- `NOTIFY_CB` and `EMIT_DATA_CB`, with what stands behind them. -/
def emit (s : MPartRun τ) (event : MPartEvent) (go : MPartRun τ → Pass τ) : Pass τ :=
  let (told, ok) := on s.told event
  let s := { s with told := told }
  if ok then go s else (s, none)

def goTo (s : MPartRun τ) (state : MPartState) : MPartRun τ :=
  { s with parser := { s.parser with state := state } }

def setIndex (s : MPartRun τ) (index : ℕ) : MPartRun τ :=
  { s with parser := { s.parser with index := index } }

def lookBehind (s : MPartRun τ) (i : ℕ) (c : UInt8) : MPartRun τ :=
  { s with parser := { s.parser with lookbehind := s.parser.lookbehind.set i c } }

def startBoundaryByte (s : MPartRun τ) (marked : Bytes) (c : UInt8) : Pass τ :=
  let length := s.parser.multipartBoundary.length
  if s.parser.index = length then
    if c ≠ cr then (s, none)
    else (setIndex s (s.parser.index + 1), some (marked ++ [c]))
  else if s.parser.index = length + 1 then
    if c ≠ lf then (s, none)
    else
      emit on (setIndex s 0) .partDataBegin fun s =>
        (goTo s .headerFieldStart, some (marked ++ [c]))
  else if c ≠ s.parser.boundaryAt s.parser.index then (s, none)
  else (setIndex s (s.parser.index + 1), some (marked ++ [c]))

/-- `cl < 'a' || cl > 'z'` for the lower case letter of `c`, and `c` is no hyphen. -/
def invalidInName (c : UInt8) : Bool :=
  c ≠ 45 && !((97 ≤ c && c ≤ 122) || (65 ≤ c && c ≤ 90))

def headerFieldByte (s : MPartRun τ) (marked : Bytes) (c : UInt8) (isLast : Bool) : Pass τ :=
  if c = cr then (goTo s .headersAlmostDone, some (marked ++ [c]))
  else if c = 58 then
    emit on s (.headerField marked) fun s =>
      (goTo s .headerValueStart, some (marked ++ [c]))
  else if invalidInName c then (s, none)
  else if isLast then
    emit on s (.headerField (marked ++ [c])) fun s => (s, some (marked ++ [c]))
  else (s, some (marked ++ [c]))

def headerValueByte (s : MPartRun τ) (marked : Bytes) (c : UInt8) (isLast : Bool) : Pass τ :=
  if c = cr then
    emit on s (.headerValue marked) fun s =>
      (goTo s .headerValueAlmostDone, some (marked ++ [c]))
  else if isLast then
    emit on s (.headerValue (marked ++ [c])) fun s => (s, some (marked ++ [c]))
  else (s, some (marked ++ [c]))

def partDataByte (s : MPartRun τ) (marked : Bytes) (c : UInt8) (isLast : Bool) : Pass τ :=
  if c = cr then
    emit on s (.partData marked) fun s =>
      (lookBehind (goTo s .partDataAlmostBoundary) 0 cr, some [c])
  else if isLast then
    emit on s (.partData (marked ++ [c])) fun s => (s, some (marked ++ [c]))
  else (s, some (marked ++ [c]))

/-- The body of the loop.  Behind `mark = i --` the byte is met again, as part data. -/
def byte (s : MPartRun τ) (marked : Bytes) (c : UInt8) (isLast : Bool) : Pass τ :=
  match s.parser.state with
  | .start => startBoundaryByte on (goTo (setIndex s 0) .startBoundary) marked c
  | .startBoundary => startBoundaryByte on s marked c
  | .headerFieldStart => headerFieldByte on (goTo s .headerField) [] c isLast
  | .headerField => headerFieldByte on s marked c isLast
  | .headersAlmostDone =>
      if c ≠ lf then (s, none) else (goTo s .partDataStart, some (marked ++ [c]))
  | .headerValueStart =>
      if c = 32 then (s, some (marked ++ [c]))
      else headerValueByte on (goTo s .headerValue) [] c isLast
  | .headerValue => headerValueByte on s marked c isLast
  | .headerValueAlmostDone =>
      if c ≠ lf then (s, none) else (goTo s .headerFieldStart, some (marked ++ [c]))
  | .partDataStart =>
      emit on s .headersComplete fun s => partDataByte on (goTo s .partData) [] c isLast
  | .partData => partDataByte on s marked c isLast
  | .partDataAlmostBoundary =>
      if c = lf then
        (setIndex (lookBehind (goTo s .partDataBoundary) 1 lf) 0, some (marked ++ [c]))
      else
        emit on s (.partData (s.parser.lookbehind.take 1)) fun s =>
          partDataByte on (goTo s .partData) [] c isLast
  | .partDataBoundary =>
      if s.parser.boundaryAt s.parser.index ≠ c then
        emit on s (.partData (s.parser.lookbehind.take (2 + s.parser.index))) fun s =>
          partDataByte on (goTo s .partData) [] c isLast
      else
        let s := setIndex (lookBehind s (2 + s.parser.index) c) (s.parser.index + 1)
        if s.parser.index = s.parser.multipartBoundary.length then
          emit on s .partDataEnd fun s => (goTo s .partDataAlmostEnd, some (marked ++ [c]))
        else (s, some (marked ++ [c]))
  | .partDataAlmostEnd =>
      if c = 45 then (goTo s .partDataFinalHyphen, some (marked ++ [c]))
      else if c = cr then (goTo s .partDataEnd, some (marked ++ [c]))
      else (s, none)
  | .partDataFinalHyphen =>
      if c = 45 then
        emit on s .bodyEnd fun s => (goTo s .done, some (marked ++ [c]))
      else (s, none)
  | .partDataEnd =>
      if c = lf then
        emit on (goTo s .headerFieldStart) .partDataBegin fun s => (s, some (marked ++ [c]))
      else (s, none)
  | .done => (s, some (marked ++ [c]))

/-- The loop from a byte on, with the number of bytes it goes through. -/
def executeLoop (s : MPartRun τ) (marked : Bytes) : Bytes → MPartRun τ × ℕ
  | [] => (s, 0)
  | c :: rest =>
      match byte on s marked c rest.isEmpty with
      | (s, some marked) => (executeLoop s marked rest).map id (· + 1)
      | (s, none) => (s, 0)

/-- `multipart_parser_execute`, with what it returns. -/
def execute (s : MPartRun τ) (buf : Bytes) : MPartRun τ × ℕ := executeLoop on s [] buf

/-- The calls of `OnMPartBody` for the chunks of a body, with `parsed`. -/
def onMPartBody (s : MPartRun τ) : List Bytes → MPartRun τ × ℕ
  | [] => (s, 0)
  | chunk :: chunks =>
      let executed := execute on s chunk
      (onMPartBody executed.1 chunks).map id (executed.2 + ·)

end MultipartParser
end CommonComponent
