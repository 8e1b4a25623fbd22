import CommonComponent.Variant

/-!
# Runs of Variants

What a Variant stores is a fact about its union and the memory alone, whatever the tag
says: `Stored` holds of every Variant in every run.  The tag fits the union (`Tagged`)
as long as no call sets it apart, and each chunk then has one owner.

The release comes before the checks of `SetValue`, the tag of a new Variant comes from
the memory when they fail, and `SetType` does not look at the union.  These calls, where
they go wrong, are the ones that `VariantState.Safe` leaves out.
-/

namespace CommonComponent

open LabelledRun

namespace Variant

def readScalar (v : Variant) : Option Scalar :=
  match v.type with
  | .i32 => v.getI32
  | .i64 => v.getI64
  | .f32 => v.getF32
  | .f64 => v.getF64
  | _ => none

/-- The bytes of the chunk that `GetValue` returns. -/
def readChunk (v : Variant) (m : VariantMemory) : Option Bytes :=
  v.getChunk.bind fun c => (m.bytes c.data).map fun content => content.take c.len.toNat

/-- Reading with the type of the Variant returns `value`; a string that holds a NUL
need not come back. -/
def Reads (v : Variant) (m : VariantMemory) : VariantValue → Prop
  | .scalar val => v.readScalar = some val
  | .str bytes => v.type.isChunk ∧ (0 ∉ bytes → v.readChunk m = some bytes)
  | .bin bytes => v.type.isChunk ∧ v.readChunk m = some bytes

end Variant

namespace VariantWorld

/-- `data` is a block that no string or binary but Variant `i` has. -/
def OwnedAlone (w : VariantWorld) (i : ℕ) (data : Pointer) : Prop :=
  (∃ b, data = .block b) ∧
    ∀ j v c, j ≠ i → w.variants j = some v → v.type.isChunk → v.getChunk = some c →
      c.data ≠ data

structure Lawful (w : VariantWorld) (i : ℕ) (v : Variant) : Prop where
  chunk : v.type.isChunk → ∃ c content, v.getChunk = some c ∧ c.data ≠ .null ∧
    w.memory.bytes c.data = some content ∧ content.length = c.len + 1 ∧
    (0 < c.len → w.OwnedAlone i c.data)
  reads : ∀ value, w.last i = some value → v.type ≠ .max → v.Reads w.memory value

end VariantWorld

namespace VariantState

def Good : VariantState → Prop
  | .undefined => False
  | .world w => ∀ i v, w.variants i = some v → w.Lawful i v

/-- A rejected assignment leaves every Variant and the memory as they were. -/
def GoodStep : VariantState → VariantCall → VariantState → Prop
  | .world w, .assignChunk _ type val len _, .world w' =>
      ∀ data, w.pointer val = some data → ¬ Variant.accepts type data len →
        w'.variants = w.variants ∧ w'.memory = w.memory
  | _, _, _ => True

end VariantState

namespace Variant

def held (v : Variant) : Option ℕ :=
  match v.type.isChunk, v.u with
  | true, .chunk ⟨.block b, len⟩ => if 0 < len then some b else none
  | _, _ => none

end Variant

namespace VariantWorld

/-- The tag `type` fits the union of Variant `i`: a number of that type is in it or
nothing yet; for a string or a binary it is the empty chunk, or a block that is not
deleted and that no other string or binary has. -/
def Tagged (w : VariantWorld) (i : ℕ) (u : VariantUnion) : VariantType → Prop
  | .max => True
  | .str | .bin =>
      u = .chunk emptyChunk ∨
        ∃ b len, u = .chunk ⟨.block b, len⟩ ∧ (w.memory.blocks b).isSome ∧
          ∀ j v, j ≠ i → w.variants j = some v → v.held ≠ some b
  | type => u = .zero ∨ ∃ val, u = .scalar val ∧ val.type = type

end VariantWorld

namespace VariantState

/-- The calls that keep the Variants as they should be. -/
def Safe : VariantState → VariantCall → Prop
  | .world w, .constructChunk _ tag type val len _ =>
      ∀ data, w.pointer val = some data →
        if Variant.accepts type data len then len + 1 < 2 ^ 31 else ¬ tag.isChunk
  | .world w, .assignChunk i type val len _ =>
      ∀ v data, w.variants i = some v → w.pointer val = some data →
        (Variant.accepts type data len → len + 1 < 2 ^ 31) ∧
        (v.held.isSome → Variant.accepts type data len ∧ (val = .chunkOf i → len = 0))
  | .world w, .setType i type => ∀ v, w.variants i = some v → w.Tagged i v.u type
  | _, _ => True

end VariantState

/-! ## What the union stores -/

/-- A chunk of these bytes is what was assigned, as far as that is asked. -/
def VariantValue.Kept : VariantValue → Bytes → Prop
  | .scalar _, _ => False
  | .str bytes, got => 0 ∉ bytes → got = bytes
  | .bin bytes, got => got = bytes

/-- The union has what was assigned last; a block may be deleted in the meantime. -/
inductive Stored (m : VariantMemory) : VariantUnion → Option VariantValue → Prop
  | zero : Stored m .zero none
  | scalar (val : Scalar) : Stored m (.scalar val) (some (.scalar val))
  | empty (value : VariantValue) (hkept : value.Kept []) :
      Stored m (.chunk emptyChunk) (some value)
  | block (b : ℕ) (len : ℤ) (value : VariantValue) (hb : b < m.next) (hlen : 0 < len)
      (hint : len + 1 < 2 ^ 31)
      (hcontent : ∀ content, m.blocks b = some content →
        content.length = len + 1 ∧ value.Kept (content.take len.toNat)) :
      Stored m (.chunk ⟨.block b, len⟩) (some value)

structure Sound (w : VariantWorld) : Prop where
  fresh : ∀ b, w.memory.next ≤ b → w.memory.blocks b = none
  stored : ∀ i v, w.variants i = some v → Stored w.memory v.u (w.last i)
  tagged : ∀ i v, w.variants i = some v → w.Tagged i v.u v.type

theorem Stored.mono {m m' : VariantMemory} {u : VariantUnion} {value : Option VariantValue}
    (h : Stored m u value) (hnext : m.next ≤ m'.next)
    (hblocks : ∀ b content, b < m.next → m'.blocks b = some content →
      m.blocks b = some content) : Stored m' u value := by
  cases h with
  | zero => exact .zero
  | scalar val => exact .scalar val
  | empty value hkept => exact .empty value hkept
  | block b len value hb hlen hint hcontent =>
      refine .block b len value (hb.trans_le hnext) hlen hint fun content hc => ?_
      exact hcontent content (hblocks b content hb hc)

namespace Variant

theorem getChunk_of_isChunk {v : Variant} (h : v.type.isChunk) : v.getChunk = v.chunk? := by
  obtain ⟨type, u⟩ := v
  cases type <;> first | rfl | cases h

theorem held_eq_some {v : Variant} {b : ℕ} (h : v.held = some b) :
    v.type.isChunk ∧ ∃ len, 0 < len ∧ v.u = .chunk ⟨.block b, len⟩ := by
  obtain ⟨type, u⟩ := v
  unfold held at h
  split at h
  · rename_i b' len htype hu
    split_ifs at h with hlen
    obtain rfl : b' = b := by simpa using h
    exact ⟨htype, len, hlen, hu⟩
  · cases h

theorem held_block {v : Variant} {b : ℕ} {len : ℤ} (htype : v.type.isChunk) (hlen : 0 < len)
    (hu : v.u = .chunk ⟨.block b, len⟩) : v.held = some b := by
  simp [held, htype, hu, hlen]

end Variant

theorem VariantWorld.tagged_chunk {w : VariantWorld} {i : ℕ} {u : VariantUnion}
    {type : VariantType} (htype : type.isChunk) :
    w.Tagged i u type ↔ u = .chunk emptyChunk ∨
      ∃ b len, u = .chunk ⟨.block b, len⟩ ∧ (w.memory.blocks b).isSome ∧
        ∀ j v, j ≠ i → w.variants j = some v → v.held ≠ some b := by
  cases type <;> first | exact Iff.rfl | cases htype

theorem VariantWorld.tagged_scalar {w : VariantWorld} {i : ℕ} {u : VariantUnion}
    {type : VariantType} (htype : ¬ type.isChunk) (hmax : type ≠ .max) :
    w.Tagged i u type ↔ u = .zero ∨ ∃ val, u = .scalar val ∧ val.type = type := by
  cases type <;> first | exact Iff.rfl | exact absurd rfl htype | exact absurd rfl hmax

theorem VariantWorld.tagged_of_not_chunk {w w' : VariantWorld} {i j : ℕ} {u : VariantUnion}
    {type : VariantType} (htype : ¬ type.isChunk) (h : w.Tagged j u type) : w'.Tagged i u type := by
  by_cases hmax : type = .max
  · rw [hmax]
    trivial
  · rw [VariantWorld.tagged_scalar htype hmax] at h ⊢
    exact h

theorem VariantWorld.tagged_zero {w : VariantWorld} {i : ℕ} {type : VariantType}
    (htype : ¬ type.isChunk) : w.Tagged i .zero type := by
  cases type <;> first | exact Or.inl rfl | trivial

theorem Variant.readScalar_eq (val : Scalar) :
    Variant.readScalar ⟨val.type, .scalar val⟩ = some val := by
  cases val <;> rfl

namespace Sound

variable {w : VariantWorld}

/-- A string or a binary has the empty chunk or a block of its own. -/
theorem chunk_cases (hs : Sound w) {i : ℕ} {v : Variant} (hv : w.variants i = some v)
    (htype : v.type.isChunk) :
    (v.u = .chunk emptyChunk ∧ ∃ value, w.last i = some value ∧ value.Kept []) ∨
      ∃ b len content value, v.u = .chunk ⟨.block b, len⟩ ∧ w.last i = some value ∧ 0 < len ∧
        len + 1 < 2 ^ 31 ∧ b < w.memory.next ∧ w.memory.blocks b = some content ∧
        content.length = len + 1 ∧ value.Kept (content.take len.toNat) ∧
        ∀ j v', j ≠ i → w.variants j = some v' → v'.held ≠ some b := by
  have hstored := hs.stored i v hv
  rcases (VariantWorld.tagged_chunk htype).mp (hs.tagged i v hv) with hu | ⟨b, len, hu, hb, halone⟩
  · left
    rw [hu] at hstored
    generalize w.last i = last at hstored
    cases hstored with
    | empty value hkept => exact ⟨hu, value, rfl, hkept⟩
  · right
    obtain ⟨content, hcontent⟩ := Option.isSome_iff_exists.mp hb
    rw [hu] at hstored
    generalize hlast : w.last i = last at hstored
    cases hstored with
    | block _ _ value hnext hlen hint hkept =>
        obtain ⟨hlength, hkept⟩ := hkept content hcontent
        exact ⟨b, len, content, value, hu, rfl, hlen, hint, hnext, hcontent, hlength, hkept,
          halone⟩

theorem held (hs : Sound w) {i b : ℕ} {v : Variant} (hv : w.variants i = some v)
    (hheld : v.held = some b) :
    b < w.memory.next ∧ (w.memory.blocks b).isSome ∧
      ∀ j v', j ≠ i → w.variants j = some v' → v'.held ≠ some b := by
  obtain ⟨htype, len, -, hu⟩ := Variant.held_eq_some hheld
  rcases hs.chunk_cases hv htype with ⟨hu', -⟩ |
    ⟨b', len', content, -, hu', -, -, -, hnext, hcontent, -, -, halone⟩
  · rw [hu] at hu'
    cases hu'
  · rw [hu] at hu'
    cases hu'
    exact ⟨hnext, by rw [hcontent]; rfl, halone⟩

/-- A chunk whose bytes are what was assigned is read as what was assigned. -/
theorem reads_chunk {v : Variant} {m : VariantMemory} {value : VariantValue} {got : Bytes}
    (htype : v.type.isChunk) (hread : v.readChunk m = some got) (hkept : value.Kept got) :
    v.Reads m value := by
  cases value with
  | scalar val => exact hkept.elim
  | str bytes => exact ⟨htype, fun h => by rw [hread, hkept h]⟩
  | bin bytes => exact ⟨htype, by rw [hread, show got = bytes from hkept]⟩

theorem lawful_chunk (hs : Sound w) {i : ℕ} {v : Variant} (hv : w.variants i = some v)
    (htype : v.type.isChunk) : w.Lawful i v := by
  have hget : v.getChunk = v.chunk? := Variant.getChunk_of_isChunk htype
  rcases hs.chunk_cases hv htype with ⟨hu, value, hlast, hkept⟩ |
    ⟨b, len, content, value, hu, hlast, hlen, -, -, hcontent, hlength, hkept, halone⟩
  · have hchunk : v.getChunk = some emptyChunk := by rw [hget, Variant.chunk?, hu]
    constructor
    · intro _
      exact ⟨emptyChunk, [0], hchunk, by decide, rfl, rfl, fun h => absurd h (lt_irrefl 0)⟩
    · intro value' hlast' _
      obtain rfl : value = value' := Option.some.inj (hlast.symm.trans hlast')
      have hread : v.readChunk w.memory = some [] := by rw [Variant.readChunk, hchunk]; rfl
      exact reads_chunk htype hread hkept
  · have hchunk : v.getChunk = some ⟨.block b, len⟩ := by rw [hget, Variant.chunk?, hu]
    constructor
    · intro _
      refine ⟨_, content, hchunk, by simp, hcontent, hlength, fun _ => ⟨⟨b, rfl⟩, ?_⟩⟩
      intro j v' c hj hv' htype' hc hdata
      -- another chunk with this block would be a holder of it
      rw [Variant.getChunk_of_isChunk htype'] at hc
      rcases hs.chunk_cases hv' htype' with ⟨hu', -⟩ | ⟨b', len', -, -, hu', -, hlen', -⟩
      · obtain rfl : emptyChunk = c := by simpa [Variant.chunk?, hu'] using hc
        cases hdata
      · obtain rfl : ⟨.block b', len'⟩ = c := by simpa [Variant.chunk?, hu'] using hc
        obtain rfl : b' = b := by simpa using hdata
        exact halone j v' hj hv' (Variant.held_block htype' hlen' hu')
    · intro value' hlast' _
      obtain rfl : value = value' := Option.some.inj (hlast.symm.trans hlast')
      have hread : v.readChunk w.memory = some (content.take len.toNat) := by
        rw [Variant.readChunk, hchunk]
        simp [VariantMemory.bytes, hcontent]
      exact reads_chunk htype hread hkept

theorem lawful (hs : Sound w) {i : ℕ} {v : Variant} (hv : w.variants i = some v) :
    w.Lawful i v := by
  by_cases htype : v.type.isChunk
  · exact hs.lawful_chunk hv htype
  · refine ⟨fun h => absurd h htype, fun value hlast hmax => ?_⟩
    have hstored := hs.stored i v hv
    rw [hlast] at hstored
    rcases (VariantWorld.tagged_scalar htype hmax).mp (hs.tagged i v hv) with hu | ⟨val, hu, hval⟩
    · rw [hu] at hstored
      cases hstored
    · rw [hu] at hstored
      cases hstored
      obtain ⟨type, u⟩ := v
      obtain rfl : val.type = type := hval
      obtain rfl : u = .scalar val := hu
      exact Variant.readScalar_eq val

end Sound

/-! ## One Variant changes -/

/-- The memory after Variant `i` may have deleted a block. -/
structure Freed (w : VariantWorld) (i : ℕ) (m : VariantMemory) : Prop where
  next : m.next = w.memory.next
  blocks : ∀ b, m.blocks b = w.memory.blocks b ∨
    m.blocks b = none ∧ ∀ j v, j ≠ i → w.variants j = some v → v.held ≠ some b

theorem Freed.refl (w : VariantWorld) (i : ℕ) : Freed w i w.memory :=
  ⟨rfl, fun _ => Or.inl rfl⟩

theorem Freed.kept {w : VariantWorld} {i : ℕ} {m : VariantMemory} (h : Freed w i m) {j b : ℕ}
    {v : Variant} (hj : j ≠ i) (hv : w.variants j = some v) (hheld : v.held = some b) :
    m.blocks b = w.memory.blocks b := by
  rcases h.blocks b with hsame | ⟨-, hother⟩
  · exact hsame
  · exact absurd hheld (hother j v hj hv)

theorem Freed.old {w : VariantWorld} {i : ℕ} {m : VariantMemory} (h : Freed w i m) {b : ℕ}
    {content : Bytes} (hb : m.blocks b = some content) : w.memory.blocks b = some content := by
  rcases h.blocks b with hsame | ⟨hnone, -⟩
  · rw [← hsame, hb]
  · rw [hnone] at hb
    cases hb

namespace Sound

variable {w : VariantWorld} {i : ℕ} {m : VariantMemory}

/-- A Variant that takes another value leaves what the others have. -/
theorem put (hs : Sound w) {v' : Option Variant} {value : Option VariantValue}
    (hnext : w.memory.next ≤ m.next) (hfresh : ∀ b, m.next ≤ b → m.blocks b = none)
    (hold : ∀ b content, b < w.memory.next → m.blocks b = some content →
      w.memory.blocks b = some content)
    (hkept : ∀ j v b, j ≠ i → w.variants j = some v → v.held = some b →
      m.blocks b = w.memory.blocks b)
    (hnew : ∀ v, v' = some v → Stored m v.u value ∧ (w.put i m v' value).Tagged i v.u v.type) :
    Sound (w.put i m v' value) := by
  have hvariants : ∀ j v, (w.put i m v' value).variants j = some v →
      (j = i ∧ v' = some v) ∨ (j ≠ i ∧ w.variants j = some v) := by
    intro j v hv
    by_cases hj : j = i
    · subst hj
      exact Or.inl ⟨rfl, by simpa [VariantWorld.put] using hv⟩
    · exact Or.inr ⟨hj, by simpa [VariantWorld.put, hj] using hv⟩
  refine ⟨hfresh, fun j v hv => ?_, fun j v hv => ?_⟩
  · rcases hvariants j v hv with ⟨rfl, hv'⟩ | ⟨hj, hv'⟩
    · simpa [VariantWorld.put] using (hnew v hv').1
    · have hstored := (hs.stored j v hv').mono hnext hold
      simpa [VariantWorld.put, hj] using hstored
  · rcases hvariants j v hv with ⟨rfl, hv'⟩ | ⟨hj, hv'⟩
    · exact (hnew v hv').2
    · by_cases htype : v.type.isChunk
      · rw [VariantWorld.tagged_chunk htype]
        rcases hs.chunk_cases hv' htype with ⟨hu, -⟩ |
          ⟨b, len, content, -, hu, -, hlen, -, -, hcontent, -, -, halone⟩
        · exact Or.inl hu
        · have hheld : v.held = some b := Variant.held_block htype hlen hu
          refine Or.inr ⟨b, len, hu, ?_, fun k vk hk hvk hheldk => ?_⟩
          · change (m.blocks b).isSome
            rw [hkept j v b hj hv' hheld, hcontent]
            rfl
          · rcases hvariants k vk hvk with ⟨rfl, hvk'⟩ | ⟨-, hvk'⟩
            · -- the new value would share its block with Variant `j`
              obtain ⟨htypek, len', -, huk⟩ := Variant.held_eq_some hheldk
              rcases (VariantWorld.tagged_chunk htypek).mp (hnew vk hvk').2 with
                hempty | ⟨b', len'', huk', -, halone'⟩
              · rw [huk] at hempty
                cases hempty
              · rw [huk] at huk'
                cases huk'
                exact halone' j v hj hv hheld
            · exact halone k vk hk hvk' hheldk
      · exact VariantWorld.tagged_of_not_chunk htype (hs.tagged j v hv')

theorem put_freed (hs : Sound w) (hfreed : Freed w i m) {v' : Option Variant}
    {value : Option VariantValue}
    (hnew : ∀ v, v' = some v → Stored m v.u value ∧ (w.put i m v' value).Tagged i v.u v.type) :
    Sound (w.put i m v' value) := by
  refine hs.put hfreed.next.ge (fun b hb => ?_) (fun b content _ => hfreed.old)
    (fun j v b => hfreed.kept) hnew
  rcases hfreed.blocks b with hsame | ⟨hnone, -⟩
  · rw [hsame, hs.fresh b (hfreed.next ▸ hb)]
  · exact hnone

end Sound

/-! ## A chunk is copied -/

theorem Variant.accepts_iff {type : VariantType} {data : Pointer} {len : ℤ} :
    Variant.accepts type data len = true ↔ (data ≠ .null ∧ 0 ≤ len) ∧ type.isChunk = true := by
  simp [Variant.accepts]

theorem Variant.setChunk_accepted {type : VariantType} {data : Pointer} {len : ℤ}
    (haccepts : Variant.accepts type data len) (v : Variant) (m : VariantMemory) (junk : UInt8) :
    v.setChunk m type data len junk =
      if len = 0 then some (m, ⟨type, .chunk emptyChunk⟩)
      else if 2 ^ 31 ≤ len + 1 then none
      else (m.bytes data).map fun content =>
        (m.alloc (copied type content len.toNat junk), ⟨type, .chunk ⟨.block m.next, len⟩⟩) := by
  obtain ⟨⟨hnull, hnonneg⟩, htype⟩ := Variant.accepts_iff.mp haccepts
  have hrejected : ¬ (data = .null ∨ len < 0) := by
    rintro (h | h)
    · exact hnull h
    · omega
  rw [Variant.setChunk, if_neg hrejected, if_neg (not_not.mpr htype)]

def Copyable (type : VariantType) (content : Bytes) (len : ℤ) : Prop :=
  len ≤ content.length ∨ type = .str ∧ 0 ∈ content

theorem cStr_take {content : Bytes} {n : ℕ} (hnul : 0 ∉ content.take n) :
    (cStr content).take n = content.take n := by
  have hall : ∀ x ∈ content.take n, decide (x ≠ 0) = true := by
    intro x hx
    have hne : x ≠ 0 := fun h => hnul (h ▸ hx)
    simp [hne]
  calc (cStr content).take n
      = (List.takeWhile (· ≠ 0) (content.take n ++ content.drop n)).take n := by
        rw [List.take_append_drop, cStr]
    _ = (content.take n ++ List.takeWhile (· ≠ 0) (content.drop n)).take n := by
        rw [List.takeWhile_append_of_pos hall]
    _ = content.take n := by
        rw [List.take_append]
        by_cases hn : n ≤ content.length
        · simp [hn]
        · have hdrop : content.drop n = [] := List.drop_eq_nil_of_le (by omega)
          simp [hdrop]

theorem length_copied {type : VariantType} {content : Bytes} {len : ℤ} (junk : UInt8)
    (hlen : 0 ≤ len) (hcopy : Copyable type content len) :
    ((copied type content len.toNat junk).length : ℤ) = len + 1 := by
  unfold copied
  split_ifs with htype
  · have htext : ((cStr content).take len.toNat).length ≤ len.toNat := List.length_take_le _ _
    simp only [List.length_append, List.length_replicate, List.length_singleton]
    omega
  · have hcontent : len ≤ content.length := hcopy.resolve_right fun h => htype h.1
    simp only [List.length_append, List.length_take, List.length_singleton]
    omega

/-- The copy keeps the chunk: `strncpy` stops at a NUL only. -/
theorem kept_copied {type : VariantType} {content : Bytes} {len : ℤ} (junk : UInt8)
    (hcopy : Copyable type content len) :
    (VariantValue.ofChunk type content len).Kept
      ((copied type content len.toNat junk).take len.toNat) := by
  unfold VariantValue.ofChunk copied
  split_ifs with htype
  · intro hnul
    have hlength : len.toNat ≤ content.length := by
      by_contra hshort
      rcases hcopy with hlen | ⟨-, hmem⟩
      · omega
      · rw [List.take_of_length_le (by omega)] at hnul
        exact hnul hmem
    have hn : (content.take len.toNat).length = len.toNat := by simp [hlength]
    simp only
    rw [cStr_take hnul, hn, Nat.sub_self, List.replicate_zero, List.append_nil,
      List.take_append_of_le_length hn.ge, List.take_take, Nat.min_self]
  · have hlen : len ≤ content.length := hcopy.resolve_right fun h => htype h.1
    have hn : (content.take len.toNat).length = len.toNat := by
      rw [List.length_take]
      omega
    change ((content.take len.toNat ++ [junk]).take len.toNat) = content.take len.toNat
    rw [List.take_append_of_le_length hn.ge, List.take_take, Nat.min_self]

namespace Sound

variable {w : VariantWorld} {i : ℕ} {m : VariantMemory}

theorem kept_nil (type : VariantType) (content : Bytes) :
    (VariantValue.ofChunk type content 0).Kept [] := by
  unfold VariantValue.ofChunk
  split_ifs
  · exact fun _ => by simp
  · exact (by simp : ([] : Bytes) = content.take (0 : ℤ).toNat)

/-- A chunk in a new block. -/
theorem put_alloc (hs : Sound w) (hfreed : Freed w i m) {type : VariantType}
    (htype : type.isChunk) {content : Bytes} {len : ℤ} {value : VariantValue} (hlen : 0 < len)
    (hint : len + 1 < 2 ^ 31) (hlength : content.length = len + 1)
    (hkept : value.Kept (content.take len.toNat)) :
    Sound (w.put i (m.alloc content) (some ⟨type, .chunk ⟨.block m.next, len⟩⟩) (some value)) := by
  have hold {b : ℕ} (hb : b < w.memory.next) : (m.alloc content).blocks b = m.blocks b :=
    VariantMemory.blocks_alloc_of_ne _ (hfreed.next ▸ hb.ne)
  refine hs.put (hfreed.next.ge.trans (Nat.le_succ _)) (fun b hb => ?_) ?_ ?_ ?_
  · have hb' : m.next < b := hb
    have hfresh : w.memory.blocks b = none := hs.fresh b (hfreed.next ▸ hb'.le)
    rw [VariantMemory.blocks_alloc_of_ne _ hb'.ne']
    cases hblock : m.blocks b with
    | none => rfl
    | some content' =>
        rw [hfreed.old hblock] at hfresh
        cases hfresh
  · intro b content' hb hblock
    rw [hold hb] at hblock
    exact hfreed.old hblock
  · intro j v' b hj hv' hheld
    rw [hold (hs.held hv' hheld).1]
    exact hfreed.kept hj hv' hheld
  · intro v' hv'
    obtain rfl := Option.some.inj hv'
    constructor
    · refine .block m.next len value (Nat.lt_succ_self _) hlen hint fun content' hc => ?_
      obtain rfl : content = content' := by simpa using hc
      exact ⟨hlength, hkept⟩
    · refine (VariantWorld.tagged_chunk htype).mpr (Or.inr ⟨m.next, len, rfl, ?_, ?_⟩)
      · simp [VariantWorld.put]
      · intro j v' hj hv' hheld
        have hv'' : w.variants j = some v' := by simpa [VariantWorld.put, hj] using hv'
        have hb : m.next < w.memory.next := (hs.held hv'' hheld).1
        exact hb.ne hfreed.next

theorem setChunk (hs : Sound w) (hfreed : Freed w i m) (v : Variant) {type : VariantType}
    {data : Pointer} {len : ℤ} (junk : UInt8) {content : Bytes}
    (haccepts : Variant.accepts type data len) (hint : len + 1 < 2 ^ 31)
    (hbytes : len ≠ 0 → m.bytes data = some content) (hcopy : Copyable type content len) :
    ∃ m' v', v.setChunk m type data len junk = some (m', v') ∧
      Sound (w.put i m' (some v') (some (.ofChunk type content len))) := by
  obtain ⟨⟨-, hnonneg⟩, htype⟩ := Variant.accepts_iff.mp haccepts
  rw [Variant.setChunk_accepted haccepts]
  by_cases hlen : len = 0
  · subst hlen
    refine ⟨m, ⟨type, .chunk emptyChunk⟩, by rw [if_pos rfl], hs.put_freed hfreed ?_⟩
    intro v' hv'
    obtain rfl := Option.some.inj hv'
    exact ⟨.empty _ (kept_nil type content),
      (VariantWorld.tagged_chunk htype).mpr (Or.inl rfl)⟩
  · rw [if_neg hlen, if_neg (by omega), hbytes hlen]
    exact ⟨_, _, rfl, hs.put_alloc hfreed htype (by omega) hint
      (length_copied junk hnonneg hcopy) (kept_copied junk hcopy)⟩

end Sound

/-! ## The calls -/

theorem Variant.setChunk_rejected {type : VariantType} {data : Pointer} {len : ℤ}
    (hrejected : ¬ Variant.accepts type data len) (v : Variant) (m : VariantMemory)
    (junk : UInt8) : v.setChunk m type data len junk = some (m, v) := by
  unfold Variant.setChunk
  by_cases hdata : data = .null ∨ len < 0
  · rw [if_pos hdata]
  · rw [if_neg hdata]
    by_cases htype : type.isChunk
    · obtain ⟨hnull, hlen⟩ := not_or.mp hdata
      exact absurd (Variant.accepts_iff.mpr ⟨⟨hnull, by omega⟩, htype⟩) hrejected
    · rw [if_pos htype]

theorem Variant.setChunk_overflow {type : VariantType} {data : Pointer} {len : ℤ}
    (haccepts : Variant.accepts type data len) (hint : 2 ^ 31 ≤ len + 1) (v : Variant)
    (m : VariantMemory) (junk : UInt8) : v.setChunk m type data len junk = none := by
  rw [Variant.setChunk_accepted haccepts, if_neg (by omega), if_pos hint]

namespace Sound

variable {w : VariantWorld} {i : ℕ}

/-- A release deletes the block that is held and nothing else. -/
theorem release (hs : Sound w) {v : Variant} (hv : w.variants i = some v) :
    (v.held = none ∧ v.release w.memory = some (w.memory, v)) ∨
      ∃ b, v.held = some b ∧
        v.release w.memory = some (w.memory.free b, { v with u := .chunk ⟨.null, 0⟩ }) := by
  unfold Variant.release
  by_cases htype : v.type.isChunk
  · rw [if_pos htype]
    rcases hs.chunk_cases hv htype with ⟨hu, -⟩ |
      ⟨b, len, content, -, hu, -, hlen, -, -, hcontent, -⟩
    · left
      refine ⟨by simp [Variant.held, hu, emptyChunk], ?_⟩
      simp [Variant.chunk?, hu, emptyChunk]
    · right
      refine ⟨b, Variant.held_block htype hlen hu, ?_⟩
      simp [Variant.chunk?, hu, hlen, hcontent]
  · left
    rw [if_neg htype]
    exact ⟨by simp [Variant.held, htype], rfl⟩

theorem freed (hs : Sound w) {v : Variant} (hv : w.variants i = some v) {b : ℕ}
    (hheld : v.held = some b) : Freed w i (w.memory.free b) := by
  refine ⟨rfl, fun b' => ?_⟩
  by_cases hb : b' = b
  · subst hb
    exact Or.inr ⟨by simp, (hs.held hv hheld).2.2⟩
  · exact Or.inl (VariantMemory.blocks_free_of_ne hb)

theorem exists_release (hs : Sound w) {v : Variant} (hv : w.variants i = some v) :
    ∃ m v', v.release w.memory = some (m, v') ∧ Freed w i m := by
  rcases hs.release hv with ⟨-, hrelease⟩ | ⟨b, hheld, hrelease⟩
  · exact ⟨_, _, hrelease, Freed.refl w i⟩
  · exact ⟨_, _, hrelease, hs.freed hv hheld⟩

/-- The chunk a Variant returns can be read as long as its block is there. -/
theorem getChunk (hs : Sound w) {v : Variant} (hv : w.variants i = some v) :
    ∃ c, v.getChunk = some c ∧ (c.data = .emptyStr ∨ ∃ b, c.data = .block b ∧ v.held = some b) := by
  by_cases htype : v.type.isChunk
  · rw [Variant.getChunk_of_isChunk htype, Variant.chunk?]
    rcases hs.chunk_cases hv htype with ⟨hu, -⟩ | ⟨b, len, -, -, hu, -, hlen, -⟩
    · exact ⟨emptyChunk, by rw [hu], Or.inl rfl⟩
    · exact ⟨⟨.block b, len⟩, by rw [hu],
        Or.inr ⟨b, rfl, Variant.held_block htype hlen hu⟩⟩
  · refine ⟨emptyChunk, ?_, Or.inl rfl⟩
    obtain ⟨type, u⟩ := v
    cases type <;> first | rfl | exact absurd rfl htype

theorem pointer (hs : Sound w) {val : ChunkSource} (hval : w.SourceExists val) :
    ∃ data, w.pointer val = some data := by
  cases val with
  | null => exact ⟨_, rfl⟩
  | memory bytes => exact ⟨_, rfl⟩
  | chunkOf j =>
      obtain ⟨v, hv⟩ := Option.isSome_iff_exists.mp hval
      obtain ⟨c, hc, -⟩ := hs.getChunk hv
      exact ⟨c.data, by simp [VariantWorld.pointer, hv, hc]⟩

/-- What the caller passes is still there after the release, unless it was the Variant's
own block. -/
theorem bytes_pointer (hs : Sound w) {m : VariantMemory} (hfreed : Freed w i m)
    {val : ChunkSource} {data : Pointer} (hdata : w.pointer val = some data)
    (hself : val = .chunkOf i → m = w.memory) : m.bytes data = w.memory.bytes data := by
  cases val with
  | null =>
      obtain rfl : .null = data := Option.some.inj hdata
      rfl
  | memory bytes =>
      obtain rfl : .memory bytes = data := Option.some.inj hdata
      rfl
  | chunkOf j =>
      by_cases hj : j = i
      · rw [hself (by rw [hj])]
      · obtain ⟨v, hv, hget⟩ := Option.bind_eq_some_iff.mp hdata
        obtain ⟨c, hc, hcase⟩ := hs.getChunk hv
        rw [hc] at hget
        obtain rfl : c.data = data := Option.some.inj hget
        rcases hcase with hempty | ⟨b, hb, hheld⟩
        · rw [hempty]
          rfl
        · rw [hb]
          exact hfreed.kept hj hv hheld

theorem readable {type : VariantType} {val : ChunkSource} {data : Pointer} {len : ℤ}
    (h : w.Readable type val len) (hdata : w.pointer val = some data)
    (haccepts : Variant.accepts type data len) :
    ∃ content, w.memory.bytes data = some content ∧ Copyable type content len := by
  simp only [VariantWorld.Readable, hdata, Option.all_some, haccepts, Bool.not_true,
    Bool.false_or, Bool.and_eq_true] at h
  cases hcontent : w.memory.bytes data with
  | none =>
      rw [hcontent] at h
      exact absurd h.2 (by simp)
  | some content =>
      rw [hcontent] at h
      exact ⟨content, rfl, by simpa [Copyable] using h.2⟩

theorem tagged_put {u : VariantUnion} {type : VariantType} {v : Option Variant}
    {value : Option VariantValue} (h : w.Tagged i u type) :
    (w.put i w.memory v value).Tagged i u type := by
  by_cases htype : type.isChunk
  · rw [VariantWorld.tagged_chunk htype] at h ⊢
    rcases h with hu | ⟨b, len, hu, hb, halone⟩
    · exact Or.inl hu
    · refine Or.inr ⟨b, len, hu, hb, fun j v' hj hv' => ?_⟩
      exact halone j v' hj (by simpa [VariantWorld.put, hj] using hv')
  · exact VariantWorld.tagged_of_not_chunk htype h

theorem put_scalar (hs : Sound w) {m : VariantMemory} (hfreed : Freed w i m) (val : Scalar) :
    Sound (w.put i m (some (Variant.setScalar val)) (some (.scalar val))) := by
  refine hs.put_freed hfreed fun v hv => ?_
  obtain rfl := Option.some.inj hv
  refine ⟨.scalar val, ?_⟩
  cases val <;> exact Or.inr ⟨_, rfl, rfl⟩

theorem copyFrom (hs : Sound w) {m : VariantMemory} (hfreed : Freed w i m) (v : Variant) {j : ℕ}
    (hj : j ≠ i) {source : Variant} (hsource : w.variants j = some source) (junk : UInt8)
    (old : Option VariantValue) :
    ∃ m' v', v.copyFrom m source junk = some (m', v') ∧
      Sound (w.put i m' (some v') (w.assignedCopy old j source)) := by
  unfold Variant.copyFrom VariantWorld.assignedCopy
  by_cases htype : source.type.isChunk
  · rw [if_pos htype, if_pos htype, Variant.chunk?]
    rcases hs.chunk_cases hsource htype with ⟨hu, -⟩ |
      ⟨b, len, content, -, hu, -, hlen, hint, -, hcontent, hlength, -⟩
    · have haccepts : Variant.accepts source.type emptyChunk.data emptyChunk.len := by
        simp [Variant.accepts, htype, emptyChunk]
      rw [hu, Option.bind_some, Option.bind_some, VariantWorld.assigned, if_pos haccepts]
      exact hs.setChunk hfreed v junk haccepts (by decide) (fun h => absurd rfl h)
        (Or.inl (Int.natCast_nonneg _))
    · have haccepts : Variant.accepts source.type (.block b) len := by
        simp [Variant.accepts, htype, hlen.le]
      have hheld : source.held = some b := Variant.held_block htype hlen hu
      have hbytes : w.memory.bytes (.block b) = some content := hcontent
      rw [hu, Option.bind_some, Option.bind_some, VariantWorld.assigned, if_pos haccepts, hbytes]
      have hcopy : Copyable source.type content len := Or.inl (by omega)
      exact hs.setChunk hfreed v junk haccepts hint
        (fun _ => (hfreed.kept hj hsource hheld).trans hcontent) hcopy
  · rw [if_neg htype, if_neg htype]
    refine ⟨m, source, rfl, hs.put_freed hfreed fun v' hv' => ?_⟩
    obtain rfl := Option.some.inj hv'
    constructor
    · exact (hs.stored j source hsource).mono hfreed.next.ge fun _ _ _ => hfreed.old
    · exact VariantWorld.tagged_of_not_chunk htype (hs.tagged j source hsource)

theorem constructChunk (hs : Sound w) {tag type : VariantType} {val : ChunkSource} {len : ℤ}
    (junk : UInt8) (hreadable : w.Readable type val len)
    (hsafe : VariantState.Safe (.world w) (.constructChunk i tag type val len junk)) :
    ∃ w', w.exec (.constructChunk i tag type val len junk) = some w' ∧ Sound w' := by
  obtain ⟨data, hdata⟩ : ∃ data, w.pointer val = some data :=
    hs.pointer (by simp only [VariantWorld.Readable, Bool.and_eq_true] at hreadable; tauto)
  have hcall := hsafe data hdata
  simp only [VariantWorld.exec, hdata, Option.bind_eq_bind, Option.bind_some,
    VariantWorld.assigned]
  by_cases haccepts : Variant.accepts type data len
  · rw [if_pos haccepts] at hcall ⊢
    obtain ⟨content, hcontent, hcopy⟩ := readable hreadable hdata haccepts
    obtain ⟨m', v', hset, hsound⟩ := hs.setChunk (Freed.refl w i) ⟨tag, .zero⟩ junk haccepts hcall
      (fun _ => hcontent) hcopy
    rw [hset, hcontent]
    exact ⟨_, rfl, hsound⟩
  · rw [if_neg haccepts] at hcall ⊢
    rw [Variant.setChunk_rejected haccepts]
    refine ⟨_, rfl, hs.put_freed (Freed.refl w i) fun v hv => ?_⟩
    obtain rfl := Option.some.inj hv
    exact ⟨.zero, VariantWorld.tagged_zero hcall⟩

theorem put_self {v : Variant} (hv : w.variants i = some v) :
    w.put i w.memory (some v) (w.last i) = w := by
  rw [← hv]
  simp [VariantWorld.put]

theorem assignChunk (hs : Sound w) {type : VariantType} {val : ChunkSource} {len : ℤ}
    (junk : UInt8) {v : Variant} (hv : w.variants i = some v)
    (hreadable : w.Readable type val len)
    (hsafe : VariantState.Safe (.world w) (.assignChunk i type val len junk)) :
    ∃ w', w.exec (.assignChunk i type val len junk) = some w' ∧ Sound w' ∧
      VariantState.GoodStep (.world w) (.assignChunk i type val len junk) (.world w') := by
  obtain ⟨data, hdata⟩ : ∃ data, w.pointer val = some data :=
    hs.pointer (by simp only [VariantWorld.Readable, Bool.and_eq_true] at hreadable; tauto)
  obtain ⟨hint, hheld⟩ := hsafe v data hv hdata
  simp only [VariantWorld.exec, hv, hdata, Option.bind_eq_bind, Option.bind_some,
    VariantWorld.assigned]
  by_cases haccepts : Variant.accepts type data len
  · obtain ⟨content, hcontent, hcopy⟩ := readable hreadable hdata haccepts
    have hgood (w' : VariantWorld) :
        VariantState.GoodStep (.world w) (.assignChunk i type val len junk) (.world w') := by
      intro data' hdata' hrejected
      obtain rfl : data = data' := Option.some.inj (hdata.symm.trans hdata')
      exact absurd haccepts hrejected
    rw [if_pos haccepts, hcontent]
    rcases hs.release hv with ⟨-, hrelease⟩ | ⟨b, hb, hrelease⟩
    · obtain ⟨m', v', hset, hsound⟩ := hs.setChunk (Freed.refl w i) v junk haccepts
        (hint haccepts) (fun _ => hcontent) hcopy
      rw [hrelease, Option.bind_some, hset]
      exact ⟨_, rfl, hsound, hgood _⟩
    · -- the source must not be the block that is deleted
      have hself : len ≠ 0 → val ≠ .chunkOf i := fun hlen hval =>
        hlen ((hheld (by rw [hb]; rfl)).2 hval)
      have hfreed := hs.freed hv hb
      obtain ⟨m', v', hset, hsound⟩ := hs.setChunk hfreed { v with u := .chunk ⟨.null, 0⟩ }
        junk haccepts (hint haccepts)
        (fun hlen => (hs.bytes_pointer hfreed hdata fun h => absurd h (hself hlen)).trans hcontent)
        hcopy
      rw [hrelease, Option.bind_some, hset]
      exact ⟨_, rfl, hsound, hgood _⟩
  · rcases hs.release hv with ⟨-, hrelease⟩ | ⟨b, hb, -⟩
    · rw [hrelease, Option.bind_some, Variant.setChunk_rejected haccepts, if_neg haccepts]
      refine ⟨w, ?_, hs, fun _ _ _ => ⟨rfl, rfl⟩⟩
      rw [Option.bind_some, put_self hv]
    · exact absurd (hheld (by rw [hb]; rfl)).1 haccepts

/-- A safe call is not undefined and keeps the invariant. -/
theorem exec (hs : Sound w) {call : VariantCall} (henabled : w.Enabled call)
    (hsafe : VariantState.Safe (.world w) call) :
    ∃ w', w.exec call = some w' ∧ Sound w' ∧
      VariantState.GoodStep (.world w) call (.world w') := by
  cases call with
  | construct i =>
      refine ⟨_, rfl, hs.put_freed (Freed.refl w i) fun v hv => ?_, trivial⟩
      obtain rfl := Option.some.inj hv
      exact ⟨.zero, trivial⟩
  | constructCopy i j tag junk =>
      obtain ⟨hi, hj⟩ : w.variants i = none ∧ (w.variants j).isSome := by
        simpa [VariantWorld.Enabled] using henabled
      obtain ⟨source, hsource⟩ := Option.isSome_iff_exists.mp hj
      have hne : j ≠ i := by
        rintro rfl
        rw [hi] at hsource
        cases hsource
      obtain ⟨m', v', hcopy, hsound⟩ := hs.copyFrom (Freed.refl w i) ⟨tag, .zero⟩ hne hsource
        junk none
      exact ⟨_, by simp [VariantWorld.exec, hsource, hcopy], hsound, trivial⟩
  | constructScalar i val => exact ⟨_, rfl, hs.put_scalar (Freed.refl w i) val, trivial⟩
  | constructChunk i tag type val len junk =>
      obtain ⟨-, hreadable⟩ : w.variants i = none ∧ w.Readable type val len := by
        simpa [VariantWorld.Enabled] using henabled
      obtain ⟨w', hexec, hsound⟩ := hs.constructChunk junk hreadable hsafe
      exact ⟨w', hexec, hsound, trivial⟩
  | assignCopy i j junk =>
      by_cases hij : i = j
      · exact ⟨w, by simp [VariantWorld.exec, hij], hs, trivial⟩
      · obtain ⟨hi, hj⟩ : (w.variants i).isSome ∧ (w.variants j).isSome := by
          simpa [VariantWorld.Enabled] using henabled
        obtain ⟨v, hv⟩ := Option.isSome_iff_exists.mp hi
        obtain ⟨source, hsource⟩ := Option.isSome_iff_exists.mp hj
        obtain ⟨m, v', hrelease, hfreed⟩ := hs.exists_release hv
        obtain ⟨m', v'', hcopy, hsound⟩ := hs.copyFrom hfreed v' (Ne.symm hij) hsource junk
          (w.last i)
        exact ⟨_, by simp [VariantWorld.exec, hij, hv, hsource, hrelease, hcopy], hsound, trivial⟩
  | assignScalar i val =>
      obtain ⟨v, hv⟩ := Option.isSome_iff_exists.mp henabled
      obtain ⟨m, v', hrelease, hfreed⟩ := hs.exists_release hv
      exact ⟨_, by simp [VariantWorld.exec, hv, hrelease], hs.put_scalar hfreed val, trivial⟩
  | assignChunk i type val len junk =>
      obtain ⟨hi, hreadable⟩ : (w.variants i).isSome ∧ w.Readable type val len := by
        simpa [VariantWorld.Enabled] using henabled
      obtain ⟨v, hv⟩ := Option.isSome_iff_exists.mp hi
      exact hs.assignChunk junk hv hreadable hsafe
  | setType i type =>
      obtain ⟨v, hv⟩ := Option.isSome_iff_exists.mp henabled
      have hexec : w.exec (.setType i type) =
          some (w.put i w.memory (some { v with type := type }) (w.last i)) := by
        simp [VariantWorld.exec, hv]
      refine ⟨_, hexec, hs.put_freed (Freed.refl w i) fun v' hv' => ?_, trivial⟩
      obtain rfl := Option.some.inj hv'
      exact ⟨hs.stored i v hv, tagged_put (hsafe v hv)⟩
  | destroy i =>
      obtain ⟨v, hv⟩ := Option.isSome_iff_exists.mp henabled
      obtain ⟨m, v', hrelease, hfreed⟩ := hs.exists_release hv
      have hexec : w.exec (.destroy i) = some (w.put i m none none) := by
        simp [VariantWorld.exec, hv, hrelease]
      exact ⟨_, hexec, hs.put_freed hfreed fun _ h => absurd h (by simp), trivial⟩

theorem empty : Sound VariantWorld.empty :=
  ⟨fun _ _ => rfl, fun _ _ h => absurd h (by simp [VariantWorld.empty]),
    fun _ _ h => absurd h (by simp [VariantWorld.empty])⟩

end Sound

/-! ## The calls that are not safe -/

theorem Variant.type_of_readScalar {type : VariantType} {val : Scalar}
    (h : Variant.readScalar ⟨type, .scalar val⟩ = some val) : val.type = type := by
  by_contra hne
  cases type <;>
    simp_all [Variant.readScalar, Variant.getI32, Variant.getI64, Variant.getF32,
      Variant.getF64, Variant.getScalar]

theorem Variant.not_reads_chunk {type : VariantType} (htype : ¬ type.isChunk)
    {c : VariantChunk} (m : VariantMemory) (value : VariantValue) :
    ¬ Variant.Reads ⟨type, .chunk c⟩ m value := by
  cases value with
  | scalar val =>
      intro h
      cases type <;>
        simp [Variant.Reads, Variant.readScalar, Variant.getI32, Variant.getI64,
          Variant.getF32, Variant.getF64, Variant.getScalar] at h
  | str bytes => exact fun h => htype h.1
  | bin bytes => exact fun h => htype h.1

namespace VariantWorld

variable {w : VariantWorld} {i : ℕ}

theorem Lawful.data_ne_null {v : Variant} (h : w.Lawful i v) (htype : v.type.isChunk)
    {c : VariantChunk} (hc : v.chunk? = some c) : c.data ≠ .null := by
  obtain ⟨c', -, hget, hnull, -⟩ := h.chunk htype
  rw [Variant.getChunk_of_isChunk htype, hc] at hget
  obtain rfl := Option.some.inj hget
  exact hnull

end VariantWorld

namespace Sound

variable {w : VariantWorld} {i : ℕ}

theorem safe_constructChunk {tag type : VariantType} {val : ChunkSource} {len : ℤ}
    {junk : UInt8}
    (hgood : ∃ w', w.exec (.constructChunk i tag type val len junk) = some w' ∧
      (VariantState.world w').Good) :
    VariantState.Safe (.world w) (.constructChunk i tag type val len junk) := by
  intro data hdata
  obtain ⟨w', hexec, hgood⟩ := hgood
  simp only [VariantWorld.exec, hdata, Option.bind_eq_bind, Option.bind_some] at hexec
  split_ifs with haccepts
  · by_contra hint
    rw [Variant.setChunk_overflow haccepts (by omega)] at hexec
    cases hexec
  · intro htag
    rw [Variant.setChunk_rejected haccepts, Option.bind_some] at hexec
    obtain rfl := Option.some.inj hexec
    have hlawful := hgood i ⟨tag, .zero⟩ (by simp [VariantWorld.put])
    exact hlawful.data_ne_null htag rfl rfl

theorem safe_assignChunk (hs : Sound w) {type : VariantType} {val : ChunkSource} {len : ℤ}
    {junk : UInt8}
    (hgood : ∃ w', w.exec (.assignChunk i type val len junk) = some w' ∧
      (VariantState.world w').Good) :
    VariantState.Safe (.world w) (.assignChunk i type val len junk) := by
  intro v data hv hdata
  obtain ⟨w', hexec, hgood⟩ := hgood
  simp only [VariantWorld.exec, hv, hdata, Option.bind_eq_bind, Option.bind_some] at hexec
  obtain ⟨m, v', hrelease, -⟩ := hs.exists_release hv
  refine ⟨fun haccepts => ?_, fun hheld => ?_⟩
  · by_contra hint
    rw [hrelease, Option.bind_some, Variant.setChunk_overflow haccepts (by omega)] at hexec
    cases hexec
  · obtain ⟨b, hb⟩ := Option.isSome_iff_exists.mp hheld
    obtain ⟨htype, blen, -, hu⟩ := Variant.held_eq_some hb
    rcases hs.release hv with ⟨hnone, -⟩ | ⟨b', hb', hrelease'⟩
    · rw [hb] at hnone
      cases hnone
    · obtain rfl : b = b' := Option.some.inj (hb.symm.trans hb')
      rw [hrelease', Option.bind_some] at hexec
      by_cases haccepts : Variant.accepts type data len
      · refine ⟨haccepts, ?_⟩
        rintro rfl
        by_contra hlen
        -- the block that is to be copied is the one that was deleted
        have hdata' : data = .block b := by
          simpa [VariantWorld.pointer, hv, Variant.getChunk_of_isChunk htype, Variant.chunk?, hu]
            using hdata.symm
        have hset : Variant.setChunk { v with u := .chunk ⟨.null, 0⟩ } (w.memory.free b) type data
            len junk = none := by
          rw [Variant.setChunk_accepted haccepts, if_neg hlen, hdata']
          simp [VariantMemory.bytes]
        rw [hset] at hexec
        cases hexec
      · rw [Variant.setChunk_rejected haccepts, Option.bind_some] at hexec
        obtain rfl := Option.some.inj hexec
        have hlawful := hgood i { v with u := .chunk ⟨.null, 0⟩ } (by simp [VariantWorld.put])
        exact absurd rfl (hlawful.data_ne_null htype rfl)

/-- A union that is read as a number is clear or has that number. -/
theorem tagged_of_reads {type : VariantType} (htype : ¬ type.isChunk) (hmax : type ≠ .max)
    {m : VariantMemory} {u : VariantUnion} {last : Option VariantValue} (hstored : Stored m u last)
    (hreads : ∀ value, last = some value → Variant.Reads ⟨type, u⟩ m value) :
    w.Tagged i u type := by
  rw [VariantWorld.tagged_scalar htype hmax]
  cases hstored with
  | zero => exact Or.inl rfl
  | scalar val => exact Or.inr ⟨val, rfl, Variant.type_of_readScalar (hreads _ rfl)⟩
  | empty value hkept => exact absurd (hreads value rfl) (Variant.not_reads_chunk htype _ value)
  | block b len value hb hlen hint hcontent =>
      exact absurd (hreads value rfl) (Variant.not_reads_chunk htype _ value)

theorem safe_setType (hs : Sound w) {type : VariantType} {v : Variant}
    (hv : w.variants i = some v)
    (hgood : (VariantState.world
      (w.put i w.memory (some { v with type := type }) (w.last i))).Good) :
    w.Tagged i v.u type := by
  have hlawful := hgood i { v with type := type } (by simp [VariantWorld.put])
  have hstored := hs.stored i v hv
  by_cases htype : type.isChunk
  · rw [VariantWorld.tagged_chunk htype]
    obtain ⟨c, content, hget, hnull, hcontent, -, howned⟩ := hlawful.chunk htype
    rw [Variant.getChunk_of_isChunk htype, Variant.chunk?] at hget
    generalize w.last i = last at hstored
    generalize v.u = u at hstored hget
    cases hstored with
    | zero =>
        obtain rfl := Option.some.inj hget
        exact absurd rfl hnull
    | scalar val => cases hget
    | empty value hkept => exact Or.inl rfl
    | block b len value hb hlen hint hcontent' =>
        obtain rfl := Option.some.inj hget
        refine Or.inr ⟨b, len, rfl, ?_, fun j v' hj hv' hheld => ?_⟩
        · exact Option.isSome_iff_exists.mpr ⟨content, hcontent⟩
        · obtain ⟨htype', len', -, hu'⟩ := Variant.held_eq_some hheld
          refine (howned hlen).2 j v' ⟨.block b, len'⟩ hj ?_ htype' ?_ rfl
          · simpa [VariantWorld.put, hj] using hv'
          · rw [Variant.getChunk_of_isChunk htype', Variant.chunk?, hu']
  · by_cases hmax : type = .max
    · rw [hmax]
      trivial
    · refine tagged_of_reads htype hmax hstored fun value hlast => ?_
      exact hlawful.reads value (by simpa [VariantWorld.put] using hlast) hmax

end Sound

/-! ## Runs -/

namespace VariantState

def Inv : VariantState → Prop
  | .undefined => False
  | .world w => Sound w

def start : VariantState := .world .empty

theorem step_eq {w : VariantWorld} {call : VariantCall} {s' : VariantState}
    (h : (VariantState.world w).step call = some s') :
    w.Enabled call ∧ s' = (w.exec call).elim .undefined .world := by
  simp only [step] at h
  split_ifs at h with henabled
  exact ⟨henabled, (Option.some.inj h).symm⟩

theorem Inv.good : ∀ {s : VariantState}, s.Inv → s.Good
  | .undefined, h => h
  | .world _, h => fun _ _ hv => h.lawful hv

theorem Inv.step {s s' : VariantState} {call : VariantCall} (hs : s.Inv) (hsafe : s.Safe call)
    (hstep : s.step call = some s') : s'.Inv ∧ s.GoodStep call s' := by
  cases s with
  | undefined => exact hs.elim
  | world w =>
      obtain ⟨henabled, rfl⟩ := step_eq hstep
      obtain ⟨w', hexec, hsound, hgood⟩ := Sound.exec hs henabled hsafe
      rw [hexec]
      exact ⟨hsound, hgood⟩

/-- After a call that is not safe, the Variants are not as they should be. -/
theorem Inv.safe {s s' : VariantState} {call : VariantCall} (hs : s.Inv)
    (hstep : s.step call = some s') (hgood : s'.Good) : s.Safe call := by
  cases s with
  | undefined => exact hs.elim
  | world w =>
      obtain ⟨-, rfl⟩ := step_eq hstep
      have hexec : ∃ w', w.exec call = some w' ∧ (VariantState.world w').Good := by
        cases hexec : w.exec call with
        | none =>
            rw [hexec] at hgood
            exact hgood.elim
        | some w' =>
            rw [hexec] at hgood
            exact ⟨w', rfl, hgood⟩
      cases call with
      | constructChunk i tag type val len junk => exact Sound.safe_constructChunk hexec
      | assignChunk i type val len junk => exact Sound.safe_assignChunk hs hexec
      | setType i type =>
          intro v hv
          obtain ⟨w', hw', hgood'⟩ := hexec
          simp only [VariantWorld.exec, hv, Option.bind_eq_bind, Option.bind_some,
            Option.some.injEq] at hw'
          exact Sound.safe_setType hs hv (hw' ▸ hgood')
      | _ => trivial

end VariantState

/-- The Variants are as they should be all along a run exactly when each call is safe. -/
theorem variant_law (calls : List VariantCall) :
    Along VariantState.step VariantState.Good VariantState.GoodStep VariantState.start calls ↔
      Guarded VariantState.step VariantState.Safe VariantState.start calls := by
  have hstart : VariantState.start.Inv := Sound.empty
  refine along_iff_guarded (fun _ => VariantState.Inv.good) ?_ ?_ calls hstart
  · exact fun _ _ _ hs hsafe hstep => hs.step hsafe hstep
  · exact fun _ _ _ hs hstep _ hgood => hs.safe hstep hgood

/-- A string takes a null pointer: the string is gone and its type stays. -/
theorem variant_null_assignment :
    ¬ ∀ calls, Along VariantState.step VariantState.Good VariantState.GoodStep
      VariantState.start calls := by
  intro h
  let calls : List VariantCall :=
    [.constructChunk 0 .max .str (.memory [97, 98, 99, 0]) 3 0, .assignChunk 0 .str .null 0 0]
  obtain ⟨w, hrun, hv⟩ : ∃ w, run VariantState.step VariantState.start calls = some (.world w) ∧
      w.variants 0 = some ⟨.str, .chunk ⟨.null, 0⟩⟩ :=
    ⟨_, rfl, rfl⟩
  have hlawful : w.Lawful 0 ⟨.str, .chunk ⟨.null, 0⟩⟩ := (h calls).last hrun 0 _ hv
  exact hlawful.data_ne_null rfl rfl rfl

end CommonComponent
