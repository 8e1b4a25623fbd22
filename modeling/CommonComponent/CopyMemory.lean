import Mathlib.Tactic

/-!
# Memory for copies

The clients do with their cells what they like.  A block is made for a copy of some of
them, is kept by a key, and is deleted when the key lets it go.

`Owned` ties the blocks to the keys: a block is there as long as one key keeps it, and it
has been deleted once as soon as none does.
-/

namespace CopyStore

variable {α κ : Type*}

/-- A cell of the clients, or one of a block. -/
inductive Addr
  | client (a : ℕ)
  | block (b offset : ℕ)
deriving DecidableEq

def Addr.next : Addr → Addr
  | .client a => .client (a + 1)
  | .block b offset => .block b (offset + 1)

/-- A number for each address. -/
def Addr.toNat : Addr → ℕ
  | .client a => Nat.pair 0 a
  | .block b offset => Nat.pair (b + 1) offset

/-- The cells that the clients have, and what has been written to the blocks that are not
deleted.  There is a new number for each block, and `deleted` has the newest entry first. -/
structure Memory (α : Type*) where
  clients : ℕ → Option α
  blocks : ℕ → Option (List α)
  fresh : ℕ
  deleted : List Addr

/-- What is kept for the calls of a key. -/
structure Slot where
  data : Option Addr
  len : ℕ
deriving DecidableEq

def Slot.empty : Slot := ⟨none, 0⟩

namespace Memory

def init : Memory α where
  clients := fun _ => none
  blocks := fun _ => none
  fresh := 0
  deleted := []

def cell (m : Memory α) : Addr → Option α
  | .client a => m.clients a
  | .block b offset => (m.blocks b).bind fun cells => cells[offset]?

/-- The cells from an address on, if all of them can be read. -/
def read (m : Memory α) : Option Addr → ℕ → Option (List α)
  | _, 0 => some []
  | a, n + 1 =>
      (a.bind m.cell).bind fun c => (m.read (a.map Addr.next) n).map (c :: ·)

def new (m : Memory α) (cells : List α) : Memory α :=
  { m with
    blocks := Function.update m.blocks m.fresh (some cells)
    fresh := m.fresh + 1 }

def delete (m : Memory α) (a : Addr) : Memory α :=
  { m with
    blocks :=
      match a with
      | .client _ => m.blocks
      | .block b _ => Function.update m.blocks b none
    deleted := a :: m.deleted }

/-- A block with the cells; there is none if they cannot be read. -/
def copy (m : Memory α) (data : Option Addr) (len : ℕ) : Option (Memory α × Slot) :=
  (m.read data len).map fun cells => (m.new cells, ⟨some (.block m.fresh 0), len⟩)

def release (m : Memory α) (slot : Slot) : Memory α × Slot :=
  match slot.data with
  | some a => if 0 < slot.len then (m.delete a, .empty) else (m, slot)
  | none => (m, slot)

@[simp] theorem read_zero (m : Memory α) (a : Option Addr) : m.read a 0 = some [] := by
  unfold read
  rfl

theorem length_of_read {m : Memory α} {a : Option Addr} {n : ℕ} {cells : List α}
    (h : m.read a n = some cells) : cells.length = n := by
  induction n generalizing a cells with
  | zero =>
      rw [read_zero, Option.some.injEq] at h
      exact h ▸ rfl
  | succ n ih =>
      rw [read, Option.bind_eq_some_iff] at h
      obtain ⟨c, -, h⟩ := h
      rw [Option.map_eq_some_iff] at h
      obtain ⟨rest, hrest, rfl⟩ := h
      rw [List.length_cons, ih hrest]

theorem read_cells {m : Memory α} {a : ℕ → Addr} (hnext : ∀ i, (a i).next = a (i + 1))
    {cells : List α} (h : ∀ i < cells.length, m.cell (a i) = cells[i]?) :
    m.read (some (a 0)) cells.length = some cells := by
  induction cells generalizing a with
  | nil => exact read_zero m _
  | cons c cells ih =>
      have hcell : m.cell (a 0) = some c := h 0 (by simp)
      have hrest : m.read (some (a 1)) cells.length = some cells := by
        refine ih (a := fun i => a (i + 1)) (fun i => hnext (i + 1)) fun i hi => ?_
        rw [h (i + 1) (by simpa using hi)]
        rfl
      rw [List.length_cons, read, Option.bind_some, hcell, Option.bind_some, Option.map_some,
        hnext 0, hrest, Option.map_some]

theorem read_block {m : Memory α} {b : ℕ} {cells : List α} (h : m.blocks b = some cells) :
    m.read (some (.block b 0)) cells.length = some cells := by
  refine read_cells (a := Addr.block b) (fun i => rfl) fun i hi => ?_
  rw [cell, h, Option.bind_some]

theorem read_clients (m : Memory α) (cells : List α) :
    ({ m with clients := fun a => cells[a]? } : Memory α).read (some (.client 0))
      cells.length = some cells :=
  read_cells (a := Addr.client) (fun _ => rfl) fun _ _ => rfl

theorem read_congr {m m' : Memory α} {p : Addr → Prop} (hnext : ∀ a, p a → p a.next)
    (hcell : ∀ a, p a → m.cell a = m'.cell a) {a : Addr} (ha : p a) (n : ℕ) :
    m.read (some a) n = m'.read (some a) n := by
  induction n generalizing a with
  | zero => rw [read_zero, read_zero]
  | succ n ih =>
      rw [read, read, Option.bind_some, Option.bind_some, hcell a ha, Option.map_some,
        ih (hnext a ha)]

theorem release_clients (m : Memory α) (slot : Slot) : (m.release slot).1.clients = m.clients := by
  unfold release
  split
  · split <;> rfl
  · rfl

@[simp] theorem release_empty (m : Memory α) : m.release .empty = (m, .empty) := rfl

theorem release_block (m : Memory α) {b len : ℕ} (hlen : 0 < len) :
    m.release ⟨some (.block b 0), len⟩ = (m.delete (.block b 0), .empty) :=
  if_pos hlen

end Memory

/-! ## Blocks and keys -/

/-- The keys keep different blocks, and these are the ones that are there; every other
block has been deleted once, and nothing else has. -/
structure Owned (m : Memory α) (slot : κ → Slot) : Prop where
  kept : ∀ k, slot k = .empty ∨ ∃ b cells,
    slot k = ⟨some (.block b 0), cells.length⟩ ∧ cells ≠ [] ∧ m.blocks b = some cells
  uniq : ∀ k k' b, (slot k).data = some (.block b 0) →
    (slot k').data = some (.block b 0) → k = k'
  covered : ∀ b, (m.blocks b).isSome → ∃ k, (slot k).data = some (.block b 0)
  beyond : ∀ b, m.fresh ≤ b → m.blocks b = none
  once : ∀ b, m.deleted.count (.block b 0) =
    if b < m.fresh ∧ (m.blocks b).isNone then 1 else 0
  only : ∀ a ∈ m.deleted, ∃ b < m.fresh, a = .block b 0

namespace Owned

variable {m m' : Memory α} {slot : κ → Slot} {slot' : Slot} {k : κ} {b : ℕ}

theorem init : Owned (Memory.init : Memory α) (fun _ : κ => .empty) where
  kept := fun _ => .inl rfl
  uniq := by simp [Slot.empty]
  covered := by simp [Memory.init]
  beyond := fun _ _ => rfl
  once := by simp [Memory.init]
  only := by simp [Memory.init]

theorem clients (h : Owned m slot) (cells : ℕ → Option α) :
    Owned { m with clients := cells } slot :=
  { h with }

theorem of_data (h : Owned m slot) (hdata : (slot k).data = some (.block b 0)) :
    ∃ cells, slot k = ⟨some (.block b 0), cells.length⟩ ∧ cells ≠ [] ∧
      m.blocks b = some cells := by
  rcases h.kept k with hempty | ⟨b', cells, hslot, hcells, hblock⟩
  · simp [hempty, Slot.empty] at hdata
  · obtain rfl : b' = b := by simpa [hslot] using hdata
    exact ⟨cells, hslot, hcells, hblock⟩

theorem lt_fresh (h : Owned m slot) (hblock : (m.blocks b).isSome) : b < m.fresh := by
  by_contra hle
  rw [h.beyond b (not_lt.mp hle)] at hblock
  cases hblock

theorem release_snd (h : Owned m slot) (k : κ) : (m.release (slot k)).2 = .empty := by
  rcases h.kept k with hempty | ⟨b, cells, hslot, hcells, -⟩
  · rw [hempty, Memory.release_empty]
  · rw [hslot, Memory.release_block m (List.length_pos_of_ne_nil hcells)]

theorem release_blocks (h : Owned m slot) (hdata : (slot k).data ≠ some (.block b 0)) :
    (m.release (slot k)).1.blocks b = m.blocks b := by
  rcases h.kept k with hempty | ⟨b', cells, hslot, hcells, -⟩
  · rw [hempty, Memory.release_empty]
  · rw [hslot, Memory.release_block m (List.length_pos_of_ne_nil hcells)]
    have hne : b ≠ b' := by
      rintro rfl
      exact hdata (by rw [hslot])
    exact Function.update_of_ne hne ..

/-- What is not in the block of a key is read the same when that block is released. -/
theorem read_release (h : Owned m slot) {data : Option Addr}
    (hother : ∀ b offset, data = some (.block b offset) → (slot k).data ≠ some (.block b 0))
    (n : ℕ) : (m.release (slot k)).1.read data n = m.read data n := by
  cases data with
  | none => cases n <;> rfl
  | some a =>
      cases a with
      | client a =>
          refine Memory.read_congr (p := fun a => ∃ i, a = .client i) ?_ ?_ ⟨a, rfl⟩ n
          · rintro _ ⟨i, rfl⟩
            exact ⟨i + 1, rfl⟩
          · rintro _ ⟨i, rfl⟩
            exact congrFun (m.release_clients (slot k)) i
      | block b offset =>
          refine Memory.read_congr (p := fun a => ∃ i, a = .block b i) ?_ ?_ ⟨offset, rfl⟩ n
          · rintro _ ⟨i, rfl⟩
            exact ⟨i + 1, rfl⟩
          · rintro _ ⟨i, rfl⟩
            rw [Memory.cell, Memory.cell, h.release_blocks (hother b offset rfl)]

/-- The block itself is gone then. -/
theorem read_release_own (h : Owned m slot) (hdata : (slot k).data = some (.block b 0))
    (offset : ℕ) {n : ℕ} (hn : 0 < n) :
    (m.release (slot k)).1.read (some (.block b offset)) n = none := by
  obtain ⟨cells, hslot, hcells, -⟩ := h.of_data hdata
  obtain ⟨n, rfl⟩ := Nat.exists_eq_succ_of_ne_zero hn.ne'
  have hgone : (m.delete (.block b 0)).blocks b = none := Function.update_self ..
  rw [hslot, Memory.release_block m (List.length_pos_of_ne_nil hcells), Nat.succ_eq_add_one,
    Memory.read, Option.bind_some, Memory.cell, hgone]
  rfl

theorem option (h : Owned m slot) :
    Owned m (fun k : Option κ => k.elim .empty slot) := by
  refine ⟨?_, ?_, ?_, h.beyond, h.once, h.only⟩
  · rintro (_ | k)
    · exact .inl rfl
    · exact h.kept k
  · rintro (_ | k) (_ | k') b hk hk'
    · rfl
    · simp [Slot.empty] at hk
    · simp [Slot.empty] at hk'
    · rw [h.uniq k k' b hk hk']
  · intro b hb
    obtain ⟨k, hk⟩ := h.covered b hb
    exact ⟨some k, hk⟩

theorem of_option {slot : Option κ → Slot} (h : Owned m slot)
    (hnone : slot none = .empty) : Owned m (fun k => slot (some k)) := by
  refine ⟨fun k => h.kept (some k), fun k k' b hk hk' => ?_, fun b hb => ?_, h.beyond, h.once,
    h.only⟩
  · exact Option.some.inj (h.uniq (some k) (some k') b hk hk')
  · obtain ⟨k, hk⟩ := h.covered b hb
    cases k with
    | none => simp [hnone, Slot.empty] at hk
    | some k => exact ⟨k, hk⟩

variable [DecidableEq κ]

theorem delete (h : Owned m slot) (hdata : (slot k).data = some (.block b 0)) :
    Owned (m.delete (.block b 0)) (Function.update slot k .empty) := by
  obtain ⟨cells, hslot, hcells, hblock⟩ := h.of_data hdata
  have hlt : b < m.fresh := h.lt_fresh (by rw [hblock]; rfl)
  have hother : ∀ k' b', (Function.update slot k Slot.empty k').data = some (.block b' 0) →
      k' ≠ k ∧ b' ≠ b ∧ (slot k').data = some (.block b' 0) := by
    intro k' b' hk'
    have hne : k' ≠ k := by
      rintro rfl
      simp [Slot.empty] at hk'
    rw [Function.update_of_ne hne] at hk'
    refine ⟨hne, ?_, hk'⟩
    rintro rfl
    exact hne (h.uniq k' k b' hk' hdata)
  refine ⟨?_, ?_, ?_, ?_, ?_, ?_⟩
  · intro k'
    by_cases hk' : k' = k
    · exact .inl (by rw [hk', Function.update_self])
    · rw [Function.update_of_ne hk']
      rcases h.kept k' with hempty | ⟨b', cells', hslot', hcells', hblock'⟩
      · exact .inl hempty
      · have hne : b' ≠ b := by
          rintro rfl
          exact hk' (h.uniq k' k b' (by rw [hslot']) hdata)
        exact .inr ⟨b', cells', hslot', hcells', by simpa [Memory.delete, hne] using hblock'⟩
  · intro k₁ k₂ b' h₁ h₂
    exact h.uniq k₁ k₂ b' (hother k₁ b' h₁).2.2 (hother k₂ b' h₂).2.2
  · intro b' hb'
    have hne : b' ≠ b := by
      rintro rfl
      simp [Memory.delete] at hb'
    obtain ⟨k', hk'⟩ := h.covered b' (by simpa [Memory.delete, hne] using hb')
    refine ⟨k', ?_⟩
    rwa [Function.update_of_ne]
    rintro rfl
    rw [hdata] at hk'
    simp only [Option.some.injEq, Addr.block.injEq, and_true] at hk'
    exact hne hk'.symm
  · intro b' hb'
    have hne : b' ≠ b := (hlt.trans_le hb').ne'
    simpa [Memory.delete, hne] using h.beyond b' hb'
  · intro b'
    have honce := h.once b'
    by_cases hb' : b' = b
    · subst hb'
      rw [hblock] at honce
      simp [Memory.delete, honce, hlt]
    · simpa [Memory.delete, hb', Ne.symm hb'] using honce
  · intro a ha
    rcases List.mem_cons.mp ha with rfl | ha
    · exact ⟨b, hlt, rfl⟩
    · exact h.only a ha

theorem release (h : Owned m slot) (k : κ) :
    Owned (m.release (slot k)).1 (Function.update slot k .empty) := by
  rcases h.kept k with hempty | ⟨b, cells, hslot, hcells, hblock⟩
  · rw [hempty, Memory.release_empty, ← hempty, Function.update_eq_self]
    exact h
  · have hdelete := h.delete (k := k) (b := b) (by rw [hslot])
    rwa [hslot, Memory.release_block m (List.length_pos_of_ne_nil hcells)]

theorem new (h : Owned m slot) (hslot : slot k = .empty) {cells : List α}
    (hcells : cells ≠ []) :
    Owned (m.new cells)
      (Function.update slot k ⟨some (.block m.fresh 0), cells.length⟩) := by
  have hold : ∀ {b'}, (m.blocks b').isSome → b' ≠ m.fresh := by
    intro b' hb'
    exact (h.lt_fresh hb').ne
  have hname : ∀ {k' b'}, (slot k').data = some (.block b' 0) → b' ≠ m.fresh := by
    intro k' b' hk'
    obtain ⟨cells', -, -, hblock⟩ := h.of_data hk'
    exact hold (by rw [hblock]; rfl)
  refine ⟨?_, ?_, ?_, ?_, ?_, ?_⟩
  · intro k'
    by_cases hk' : k' = k
    · subst hk'
      refine .inr ⟨m.fresh, cells, ?_, hcells, ?_⟩
      · rw [Function.update_self]
      · exact Function.update_self ..
    · rw [Function.update_of_ne hk']
      rcases h.kept k' with hempty | ⟨b', cells', hslot', hcells', hblock'⟩
      · exact .inl hempty
      · have hne : b' ≠ m.fresh := hold (by rw [hblock']; rfl)
        exact .inr ⟨b', cells', hslot', hcells', by simpa [Memory.new, hne] using hblock'⟩
  · intro k₁ k₂ b' h₁ h₂
    by_cases hk₁ : k₁ = k
    · by_cases hk₂ : k₂ = k
      · rw [hk₁, hk₂]
      · rw [hk₁, Function.update_self, Option.some.injEq, Addr.block.injEq] at h₁
        rw [Function.update_of_ne hk₂] at h₂
        exact (hname h₂ h₁.1.symm).elim
    · rw [Function.update_of_ne hk₁] at h₁
      by_cases hk₂ : k₂ = k
      · rw [hk₂, Function.update_self, Option.some.injEq, Addr.block.injEq] at h₂
        exact (hname h₁ h₂.1.symm).elim
      · rw [Function.update_of_ne hk₂] at h₂
        exact h.uniq k₁ k₂ b' h₁ h₂
  · intro b' hb'
    by_cases hfresh : b' = m.fresh
    · exact ⟨k, by rw [Function.update_self, hfresh]⟩
    · obtain ⟨k', hk'⟩ := h.covered b' (by simpa [Memory.new, hfresh] using hb')
      refine ⟨k', ?_⟩
      rwa [Function.update_of_ne]
      rintro rfl
      simp [hslot, Slot.empty] at hk'
  · intro b' hb'
    have hlt : m.fresh < b' := hb'
    simpa [Memory.new, hlt.ne'] using h.beyond b' hlt.le
  · intro b'
    have honce := h.once b'
    by_cases hfresh : b' = m.fresh
    · simpa [Memory.new, hfresh] using honce
    · rw [show (m.new cells).deleted = m.deleted from rfl, honce]
      have hlt : b' < m.fresh + 1 ↔ b' < m.fresh := by omega
      simp [Memory.new, hfresh, hlt]
  · intro a ha
    obtain ⟨b', hb', rfl⟩ := h.only a ha
    exact ⟨b', Nat.lt_succ_of_lt hb', rfl⟩

end Owned

/-! ## Filling a slot -/

/-- What may be done with data for a slot: there is nothing to keep and the slot stays, there
is no memory for a copy, or the data is copied.  The flag says whether that is a success. -/
inductive Fills (m : Memory α) (old : Slot) (data : Option Addr) (len : ℕ) :
    Memory α × Slot × Bool → Prop
  | same (hnothing : data = none ∨ len = 0) : Fills m old data len (m, old, true)
  | failed :
      Fills m old data len
        ((m.release old).1, { (m.release old).2 with data := none }, false)
  | copied {m' : Memory α} {slot' : Slot} (hdata : data ≠ none) (hlen : 0 < len)
      (hcopy : (m.release old).1.copy data len = some (m', slot')) :
      Fills m old data len (m', slot', true)

/-- The slot stands for the cells. -/
def Memory.Holds (m : Memory α) (slot : Slot) (cells : List α) : Prop :=
  (slot = .empty ∧ cells = []) ∨
    ∃ b, slot = ⟨some (.block b 0), cells.length⟩ ∧ m.blocks b = some cells

theorem Memory.Holds.read {m : Memory α} {slot : Slot} {cells : List α}
    (h : m.Holds slot cells) :
    slot.len = cells.length ∧ m.read slot.data slot.len = some cells := by
  rcases h with ⟨rfl, rfl⟩ | ⟨b, rfl, hblock⟩
  · exact ⟨rfl, rfl⟩
  · exact ⟨rfl, m.read_block hblock⟩

theorem Memory.Holds.of_blocks {m m' : Memory α} {slot : Slot} {cells : List α}
    (h : m.Holds slot cells)
    (hblocks : ∀ b, slot.data = some (.block b 0) → m'.blocks b = m.blocks b) :
    m'.Holds slot cells := by
  rcases h with hempty | ⟨b, rfl, hblock⟩
  · exact .inl hempty
  · exact .inr ⟨b, rfl, by rw [hblocks b rfl, hblock]⟩

namespace Fills

variable {m m' : Memory α} {slot : κ → Slot} {slot' : Slot} {data : Option Addr}
  {len : ℕ} {done : Bool} {k : κ}

theorem copy_eq (h : m.copy data len = some (m', slot')) :
    ∃ cells, m.read data len = some cells ∧ m' = m.new cells ∧
      slot' = ⟨some (.block m.fresh 0), cells.length⟩ := by
  rw [Memory.copy, Option.map_eq_some_iff] at h
  obtain ⟨cells, hread, h⟩ := h
  cases h
  exact ⟨cells, hread, rfl, by rw [Memory.length_of_read hread]⟩

theorem owned [DecidableEq κ] (howned : Owned m slot)
    (h : Fills m (slot k) data len (m', slot', done)) :
    Owned m' (Function.update slot k slot') := by
  cases h with
  | same => rwa [Function.update_eq_self]
  | failed =>
      have hempty : ({ (m.release (slot k)).2 with data := none } : Slot) = .empty := by
        rw [howned.release_snd]
        rfl
      rw [hempty]
      exact howned.release k
  | copied hdata hlen hcopy =>
      obtain ⟨cells, hread, rfl, rfl⟩ := copy_eq hcopy
      have hcells : cells ≠ [] := by
        rw [← Memory.length_of_read hread] at hlen
        exact List.ne_nil_of_length_pos hlen
      have hnew := (howned.release k).new (k := k) (Function.update_self ..) hcells
      rwa [Function.update_idem] at hnew

theorem blocks (howned : Owned m slot) (h : Fills m (slot k) data len (m', slot', done))
    {b : ℕ} (hblock : (m.blocks b).isSome) (hother : (slot k).data ≠ some (.block b 0)) :
    m'.blocks b = m.blocks b := by
  cases h with
  | same => rfl
  | failed => exact howned.release_blocks hother
  | copied hdata hlen hcopy =>
      obtain ⟨cells, -, rfl, -⟩ := copy_eq hcopy
      have hfresh : (m.release (slot k)).1.fresh = m.fresh := by
        unfold Memory.release
        split
        · split <;> rfl
        · rfl
      have hne : b ≠ (m.release (slot k)).1.fresh := by
        rw [hfresh]
        exact (howned.lt_fresh hblock).ne
      rw [← howned.release_blocks hother]
      exact Function.update_of_ne hne ..

/-- Data of a length that fits its address is kept. -/
theorem holds (h : Fills m .empty data len (m', slot', true)) (hfits : data = none ↔ len = 0) :
    ∃ cells, m.read data len = some cells ∧ m'.Holds slot' cells := by
  cases h with
  | same hnothing =>
      have hlen : len = 0 := hnothing.elim hfits.mp id
      exact ⟨[], by rw [hlen, Memory.read_zero], .inl ⟨rfl, rfl⟩⟩
  | copied hdata hlen hcopy =>
      rw [Memory.release_empty] at hcopy
      obtain ⟨cells, hread, rfl, rfl⟩ := copy_eq hcopy
      exact ⟨cells, hread, .inr ⟨m.fresh, rfl, Function.update_self ..⟩⟩

theorem eq_empty (h : Fills m .empty data len (m', slot', true))
    (hfits : ¬(data = none ↔ len = 0)) : slot' = .empty := by
  cases h with
  | same => rfl
  | copied hdata hlen => exact (hfits (iff_of_false hdata hlen.ne')).elim

end Fills

end CopyStore
