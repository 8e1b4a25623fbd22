import CommonComponent.HttpReq
import CommonComponent.LabelledRun
import Mathlib.Tactic

/-!
# The Variant

`Variant` keeps a tag and a union of four numbers and a chunk.  Strings and binaries
are copied into memory of the Variant's own, the empty one is a constant.  Any number
of Variants live side by side here, over one memory.

The memory has a new block for each `new`, so a pointer to a block that was deleted
stays invalid.  `none` is undefined behaviour: a member of the union that is not the
active one is read, memory that is gone is read or deleted, an `int` overflows.
-/

namespace CommonComponent

/-- `Variant::Type`; `max` also stands for any tag that is not listed. -/
inductive VariantType
  | i32
  | i64
  | f32
  | f64
  | str
  | bin
  | max
deriving DecidableEq

def VariantType.isChunk : VariantType → Bool
  | .str | .bin => true
  | _ => false

inductive Scalar
  | i32 (val : BitVec 32)
  | i64 (val : BitVec 64)
  | f32 (val : BitVec 32)
  | f64 (val : BitVec 64)
deriving DecidableEq

def Scalar.type : Scalar → VariantType
  | .i32 _ => .i32
  | .i64 _ => .i64
  | .f32 _ => .f32
  | .f64 _ => .f64

/-- A `char*`: null, `EMPTY_STR`, a block from `new`, or memory of the caller. -/
inductive Pointer
  | null
  | emptyStr
  | block (b : ℕ)
  | memory (bytes : Bytes)
deriving DecidableEq

structure VariantChunk where
  data : Pointer
  len : ℤ
deriving DecidableEq

def emptyChunk : VariantChunk := ⟨.emptyStr, 0⟩

/-- `Variant::U` by its active member; `zero` is the union its constructor clears. -/
inductive VariantUnion
  | zero
  | scalar (val : Scalar)
  | chunk (c : VariantChunk)
deriving DecidableEq

structure Variant where
  type : VariantType
  u : VariantUnion
deriving DecidableEq

/-- The blocks from `new` that are not deleted yet; `next` is the next one. -/
structure VariantMemory where
  blocks : ℕ → Option Bytes
  next : ℕ

namespace VariantMemory

def bytes (m : VariantMemory) : Pointer → Option Bytes
  | .null => none
  | .emptyStr => some [0]
  | .block b => m.blocks b
  | .memory bytes => some bytes

def free (m : VariantMemory) (b : ℕ) : VariantMemory :=
  { m with blocks := Function.update m.blocks b none }

def alloc (m : VariantMemory) (content : Bytes) : VariantMemory where
  blocks := Function.update m.blocks m.next (some content)
  next := m.next + 1

@[simp] theorem blocks_alloc_new (m : VariantMemory) (content : Bytes) :
    (m.alloc content).blocks m.next = some content :=
  Function.update_self ..

theorem blocks_alloc_of_ne {m : VariantMemory} {b : ℕ} (content : Bytes) (hb : b ≠ m.next) :
    (m.alloc content).blocks b = m.blocks b :=
  Function.update_of_ne hb ..

@[simp] theorem blocks_free_self (m : VariantMemory) (b : ℕ) : (m.free b).blocks b = none :=
  Function.update_self ..

theorem blocks_free_of_ne {m : VariantMemory} {b b' : ℕ} (hb : b' ≠ b) :
    (m.free b).blocks b' = m.blocks b' :=
  Function.update_of_ne hb ..

end VariantMemory

/-- What `SetValue` leaves in the `len + 1` bytes: a string is copied with `strncpy`,
after a binary the last byte is whatever was there. -/
def copied (type : VariantType) (content : Bytes) (len : ℕ) (junk : UInt8) : Bytes :=
  if type = .str then
    let text := (cStr content).take len
    text ++ List.replicate (len - text.length) 0 ++ [0]
  else content.take len ++ [junk]

namespace Variant

/-- The first member of a cleared union is a null pointer of length 0. -/
def chunk? (v : Variant) : Option VariantChunk :=
  match v.u with
  | .zero => some ⟨.null, 0⟩
  | .scalar _ => none
  | .chunk c => some c

def setScalar (val : Scalar) : Variant := ⟨val.type, .scalar val⟩

def accepts (type : VariantType) (val : Pointer) (len : ℤ) : Bool :=
  !(val = .null || decide (len < 0)) && type.isChunk

def setChunk (v : Variant) (m : VariantMemory) (type : VariantType) (val : Pointer) (len : ℤ)
    (junk : UInt8) : Option (VariantMemory × Variant) :=
  if val = .null ∨ len < 0 then some (m, v)
  else if ¬ type.isChunk then some (m, v)
  else if len = 0 then some (m, ⟨type, .chunk emptyChunk⟩)
  -- `len + 1` is an `int`
  else if 2 ^ 31 ≤ len + 1 then none
  else
    (m.bytes val).map fun content =>
      (m.alloc (copied type content len.toNat junk), ⟨type, .chunk ⟨.block m.next, len⟩⟩)

def release (v : Variant) (m : VariantMemory) : Option (VariantMemory × Variant) :=
  if v.type.isChunk then
    v.chunk?.bind fun c =>
      if c.data ≠ .null ∧ 0 < c.len then
        match c.data with
        | .block b =>
            (m.blocks b).map fun _ => (m.free b, { v with u := .chunk ⟨.null, 0⟩ })
        | _ => none
      else some (m, v)
  else some (m, v)

/-- The constructor and the operator that copy a Variant, after what they do first. -/
def copyFrom (v : Variant) (m : VariantMemory) (source : Variant) (junk : UInt8) :
    Option (VariantMemory × Variant) :=
  if source.type.isChunk then
    source.chunk?.bind fun c => v.setChunk m source.type c.data c.len junk
  else some (m, source)

/-- `GetValue` of the number with the tag `type`. -/
def getScalar (v : Variant) (type : VariantType) (zero : Scalar) : Option Scalar :=
  if v.type ≠ type then some zero
  else
    match v.u with
    | .zero => some zero
    | .scalar val => if val.type = type then some val else none
    | .chunk _ => none

def getI32 (v : Variant) : Option Scalar := v.getScalar .i32 (.i32 0)

def getI64 (v : Variant) : Option Scalar := v.getScalar .i64 (.i64 0)

def getF32 (v : Variant) : Option Scalar := v.getScalar .f32 (.f32 0)

def getF64 (v : Variant) : Option Scalar := v.getScalar .f64 (.f64 0)

def getChunk (v : Variant) : Option VariantChunk :=
  if v.type ≠ .str ∧ v.type ≠ .bin then some emptyChunk else v.chunk?

end Variant

inductive VariantValue
  | scalar (val : Scalar)
  | str (bytes : Bytes)
  | bin (bytes : Bytes)

def VariantValue.ofChunk (type : VariantType) (content : Bytes) (len : ℤ) : VariantValue :=
  if type = .str then .str (content.take len.toNat) else .bin (content.take len.toNat)

/-- The Variants that exist.  `last` is the value assigned last to each; the code does
not keep it. -/
structure VariantWorld where
  variants : ℕ → Option Variant
  last : ℕ → Option VariantValue
  memory : VariantMemory

/-- Where the caller takes a `const char*` from. -/
inductive ChunkSource
  | null
  | memory (bytes : Bytes)
  /-- what `GetValue` of Variant `j` returns -/
  | chunkOf (j : ℕ)
deriving DecidableEq

/-- The calls, on Variants by number.  `junk` is what the memory of a new block holds,
`tag` what the memory of a new Variant holds where `type_` is. -/
inductive VariantCall
  | construct (i : ℕ)
  | constructCopy (i j : ℕ) (tag : VariantType) (junk : UInt8)
  | constructScalar (i : ℕ) (val : Scalar)
  | constructChunk (i : ℕ) (tag type : VariantType) (val : ChunkSource) (len : ℤ)
      (junk : UInt8)
  | assignCopy (i j : ℕ) (junk : UInt8)
  | assignScalar (i : ℕ) (val : Scalar)
  | assignChunk (i : ℕ) (type : VariantType) (val : ChunkSource) (len : ℤ) (junk : UInt8)
  | setType (i : ℕ) (type : VariantType)
  | destroy (i : ℕ)

namespace VariantWorld

def empty : VariantWorld where
  variants := fun _ => none
  last := fun _ => none
  memory := ⟨fun _ => none, 0⟩

def put (w : VariantWorld) (i : ℕ) (m : VariantMemory) (v : Option Variant)
    (value : Option VariantValue) : VariantWorld where
  variants := Function.update w.variants i v
  last := Function.update w.last i value
  memory := m

def pointer (w : VariantWorld) : ChunkSource → Option Pointer
  | .null => some .null
  | .memory bytes => some (.memory bytes)
  | .chunkOf j => (w.variants j).bind fun v => v.getChunk.map VariantChunk.data

def assigned (w : VariantWorld) (old : Option VariantValue) (type : VariantType) (val : Pointer)
    (len : ℤ) : Option VariantValue :=
  if Variant.accepts type val len then
    some (.ofChunk type ((w.memory.bytes val).getD []) len)
  else old

def assignedCopy (w : VariantWorld) (old : Option VariantValue) (j : ℕ) (source : Variant) :
    Option VariantValue :=
  if source.type.isChunk then
    source.chunk?.bind fun c => w.assigned old source.type c.data c.len
  else w.last j

def exec (w : VariantWorld) : VariantCall → Option VariantWorld
  | .construct i => some (w.put i w.memory (some ⟨.max, .zero⟩) none)
  | .constructCopy i j tag junk => do
      let source ← w.variants j
      let (m, v) ← Variant.copyFrom ⟨tag, .zero⟩ w.memory source junk
      some (w.put i m (some v) (w.assignedCopy none j source))
  | .constructScalar i val =>
      some (w.put i w.memory (some (Variant.setScalar val)) (some (.scalar val)))
  | .constructChunk i tag type val len junk => do
      let data ← w.pointer val
      let (m, v) ← Variant.setChunk ⟨tag, .zero⟩ w.memory type data len junk
      some (w.put i m (some v) (w.assigned none type data len))
  | .assignCopy i j junk =>
      if i = j then some w
      else do
        let v ← w.variants i
        let source ← w.variants j
        let (m, v) ← v.release w.memory
        let (m, v) ← v.copyFrom m source junk
        some (w.put i m (some v) (w.assignedCopy (w.last i) j source))
  | .assignScalar i val => do
      let v ← w.variants i
      let (m, _) ← v.release w.memory
      some (w.put i m (some (Variant.setScalar val)) (some (.scalar val)))
  | .assignChunk i type val len junk => do
      let v ← w.variants i
      let data ← w.pointer val
      let (m, v) ← v.release w.memory
      let (m, v) ← v.setChunk m type data len junk
      some (w.put i m (some v) (w.assigned (w.last i) type data len))
  | .setType i type => do
      let v ← w.variants i
      some (w.put i w.memory (some { v with type := type }) (w.last i))
  | .destroy i => do
      let v ← w.variants i
      let (m, _) ← v.release w.memory
      some (w.put i m none none)

def SourceExists (w : VariantWorld) : ChunkSource → Bool
  | .chunkOf j => (w.variants j).isSome
  | _ => true

/-- The caller's part for a chunk: a Variant the pointer is taken from exists, `len` is
an `int`, and the chunk is there to be read, a string at least to its NUL. -/
def Readable (w : VariantWorld) (type : VariantType) (val : ChunkSource) (len : ℤ) : Bool :=
  w.SourceExists val && decide (-2 ^ 31 ≤ len ∧ len < 2 ^ 31) &&
    (w.pointer val).all fun data =>
      !Variant.accepts type data len ||
        (w.memory.bytes data).any fun content =>
          decide (len ≤ content.length) || (decide (type = .str) && decide (0 ∈ content))

def Enabled (w : VariantWorld) : VariantCall → Bool
  | .construct i => (w.variants i).isNone
  | .constructCopy i j _ _ => (w.variants i).isNone && (w.variants j).isSome
  | .constructScalar i _ => (w.variants i).isNone
  | .constructChunk i _ type val len _ => (w.variants i).isNone && w.Readable type val len
  | .assignCopy i j _ => (w.variants i).isSome && (w.variants j).isSome
  | .assignScalar i _ => (w.variants i).isSome
  | .assignChunk i type val len _ => (w.variants i).isSome && w.Readable type val len
  | .setType i _ => (w.variants i).isSome
  | .destroy i => (w.variants i).isSome

end VariantWorld

/-- A program up to its first undefined behaviour. -/
inductive VariantState
  | undefined
  | world (w : VariantWorld)

def VariantState.step : VariantState → VariantCall → Option VariantState
  | .undefined, _ => none
  | .world w, call =>
      if w.Enabled call then some ((w.exec call).elim .undefined .world) else none

end CommonComponent
