import CommonComponent.CopyMemory
import Mathlib.Logic.Relation
import Mathlib.Tactic

/-!
# Copies kept for later calls

A store is given an address and a length under a key and hands them on when the key is
called.  It keeps nothing, or a copy of what can be read there.

`Keeps` follows what was given once through all that happens to the store, and `Law` is
what comes of it for the clients: each call of a registration has the cells that were
given, and a copy is deleted once.
-/

namespace CopyStore

variable {α κ : Type*}

/-- A call, with the registration it is made for and what can be read at its data then. -/
structure Call (α : Type*) where
  reg : ℕ
  data : Option Addr
  len : ℕ
  cells : Option (List α)
deriving DecidableEq

/-- Data as it is given, with what can be read there at that time. -/
structure Given (α : Type*) where
  data : Option Addr
  len : ℕ
  cells : Option (List α)

/-- An address without a length is handed on as it is; else the call has the length and the
cells that were given. -/
def Call.Faithful (call : Call α) (given : Given α) : Prop :=
  if given.data ≠ none ∧ given.len = 0 then call.data = given.data ∧ call.len = 0
  else call.len = given.len ∧ call.cells = given.cells

/-- `slots` has the number of the registration with each slot, and `keys` all keys there have
been.  The calls have the newest first. -/
structure Store (κ α : Type*) where
  memory : Memory α
  slots : κ → Option (Slot × ℕ)
  keys : List κ
  made : ℕ
  calls : List (Call α)

namespace Store

def init : Store κ α where
  memory := .init
  slots := fun _ => none
  keys := []
  made := 0
  calls := []

def slot (s : Store κ α) (k : κ) : Slot := ((s.slots k).map Prod.fst).getD .empty

def call (s : Store κ α) (k : κ) : Store κ α :=
  match s.slots k with
  | none => s
  | some (slot, reg) =>
      { s with
        calls := ⟨reg, slot.data, slot.len, s.memory.read slot.data slot.len⟩ :: s.calls }

/-- Something was filled that does not come under a key. -/
def discard (s : Store κ α) (m : Memory α) (slot : Slot) : Store κ α :=
  { s with memory := (m.release slot).1 }

def setClients (s : Store κ α) (cells : ℕ → Option α) : Store κ α :=
  { s with memory := { s.memory with clients := cells } }

structure Ok (s : Store κ α) : Prop where
  owned : Owned s.memory s.slot
  slotRegs : ∀ k slot reg, s.slots k = some (slot, reg) → reg < s.made
  callRegs : ∀ call ∈ s.calls, call.reg < s.made
  keys : ∀ k, (s.slots k).isSome → k ∈ s.keys

/-- The registration stands for the cells, and its calls have been made with them. -/
structure Keeps (s : Store κ α) (reg : ℕ) (cells : List α) : Prop where
  made : reg < s.made
  held : ∀ k slot, s.slots k = some (slot, reg) → s.memory.Holds slot cells
  calls : ∀ call ∈ s.calls, call.reg = reg →
    call.len = cells.length ∧ call.cells = some cells

theorem slot_of_slots {s : Store κ α} {k : κ} {slot : Slot} {reg : ℕ}
    (h : s.slots k = some (slot, reg)) : s.slot k = slot := by
  rw [Store.slot, h]
  rfl

theorem slot_of_none {s : Store κ α} {k : κ} (h : s.slots k = none) : s.slot k = .empty := by
  rw [Store.slot, h]
  rfl

@[simp] theorem call_slots (s : Store κ α) (k : κ) : (s.call k).slots = s.slots := by
  unfold call
  cases s.slots k <;> rfl

@[simp] theorem call_memory (s : Store κ α) (k : κ) : (s.call k).memory = s.memory := by
  unfold call
  cases s.slots k <;> rfl

theorem Ok.init : (init : Store κ α).Ok where
  owned := .init
  slotRegs := by simp [Store.init]
  callRegs := by simp [Store.init]
  keys := by simp [Store.init]

/-- The blocks of the keys that a step does not deal with stay. -/
theorem Ok.put_blocks {s : Store κ α} (h : s.Ok) {k k' : κ} {data : Option Addr} {len : ℕ}
    {m : Memory α} {slot : Slot} {done : Bool}
    (hfills : Fills s.memory (s.slot k) data len (m, slot, done)) (hne : k' ≠ k) {b : ℕ}
    (hk' : (s.slot k').data = some (.block b 0)) : m.blocks b = s.memory.blocks b := by
  obtain ⟨cells, -, -, hblock⟩ := h.owned.of_data hk'
  refine hfills.blocks h.owned (by rw [hblock]; rfl) fun hk => ?_
  exact hne (h.owned.uniq k' k b hk' hk)

/-- A copy has been deleted once as soon as no key keeps it, and not before; nothing else is
ever deleted. -/
structure ReleasedOnce (s : Store κ α) : Prop where
  copies : ∀ b < s.memory.fresh,
    s.memory.deleted.count (.block b 0) ≤ 1 ∧
      (s.memory.deleted.count (.block b 0) = 0 ↔ ∃ k, (s.slot k).data = some (.block b 0))
  only : ∀ a ∈ s.memory.deleted, ∃ b < s.memory.fresh, a = .block b 0

/-- How a store deals with what was given for a registration. -/
structure Law (s : Store κ α) (reg : ℕ) (given : Given α) : Prop where
  faithful : ∀ call ∈ s.calls, call.reg = reg → call.Faithful given
  released : s.ReleasedOnce

theorem Ok.releasedOnce {s : Store κ α} (h : s.Ok) : s.ReleasedOnce where
  copies := by
    intro b hb
    rw [h.owned.once b]
    cases hblock : s.memory.blocks b with
    | none =>
        refine ⟨by simp [hb], iff_of_false (by simp [hb]) ?_⟩
        rintro ⟨k, hk⟩
        obtain ⟨cells, -, -, hcells⟩ := h.owned.of_data hk
        rw [hblock] at hcells
        cases hcells
    | some cells =>
        exact ⟨by simp, iff_of_true (by simp) (h.owned.covered b (by rw [hblock]; rfl))⟩
  only := h.owned.only

/-- Where nothing is kept any more, every copy has been deleted. -/
theorem Ok.all_deleted {s : Store κ α} (h : s.Ok) (hnone : ∀ k, s.slots k = none) :
    ∀ b < s.memory.fresh, s.memory.deleted.count (.block b 0) = 1 := by
  intro b hb
  obtain ⟨hle, hzero⟩ := h.releasedOnce.copies b hb
  have hne : s.memory.deleted.count (.block b 0) ≠ 0 := by
    rw [ne_eq, hzero]
    rintro ⟨k, hk⟩
    rw [slot_of_none (hnone k)] at hk
    cases hk
  omega

/-- A registration that was given no length for its address, or no address for its length,
is called with nothing. -/
theorem not_law_of_call {s : Store κ α} {k : κ} {reg : ℕ}
    (hslot : s.slots k = some (.empty, reg)) {given : Given α}
    (hfits : ¬(given.data = none ↔ given.len = 0)) : ¬(s.call k).Law reg given := by
  intro hlaw
  have hcall : (⟨reg, none, 0, some []⟩ : Call α) ∈ (s.call k).calls := by
    rw [call, hslot]
    exact List.mem_cons_self
  have hfaithful := hlaw.faithful _ hcall rfl
  unfold Call.Faithful at hfaithful
  split_ifs at hfaithful with hobject
  · exact hobject.1 hfaithful.1.symm
  · refine hfits ⟨fun hdata => hfaithful.1.symm, fun hlen => ?_⟩
    exact not_not.mp fun hdata => hobject ⟨hdata, hlen⟩

variable [DecidableEq κ]

def put (s : Store κ α) (k : κ) (m : Memory α) (slot : Slot) : Store κ α :=
  { s with
    memory := m
    slots := Function.update s.slots k (some (slot, s.made))
    keys := k :: s.keys
    made := s.made + 1 }

def drop (s : Store κ α) (k : κ) : Store κ α :=
  { s with
    memory := (s.memory.release (s.slot k)).1
    slots := Function.update s.slots k none }

def dropAll (s : Store κ α) : Store κ α := s.keys.foldl drop s

/-- The steps of a store. -/
inductive Step (s : Store κ α) : Store κ α → Prop
  | put {k data len m slot done}
      (h : Fills s.memory (s.slot k) data len (m, slot, done)) : Step s (s.put k m slot)
  | discard {data len m slot done}
      (h : Fills s.memory .empty data len (m, slot, done)) : Step s (s.discard m slot)
  | drop (k) : Step s (s.drop k)
  | call (k) : Step s (s.call k)
  | clients (cells) : Step s (s.setClients cells)

theorem put_slot (s : Store κ α) (k : κ) (m : Memory α) (slot : Slot) :
    (s.put k m slot).slot = Function.update s.slot k slot := by
  funext k'
  by_cases hk : k' = k
  · simp [Store.slot, put, hk]
  · simp [Store.slot, put, hk]

theorem drop_slot (s : Store κ α) (k : κ) :
    (s.drop k).slot = Function.update s.slot k .empty := by
  funext k'
  by_cases hk : k' = k
  · simp [Store.slot, drop, hk]
  · simp [Store.slot, drop, hk]

theorem isSome_put (s : Store κ α) (k k' : κ) (m : Memory α) (slot : Slot) :
    ((s.put k m slot).slots k').isSome ↔ (s.slots k').isSome ∨ k' = k := by
  by_cases hk : k' = k
  · simp [put, hk]
  · simp [put, hk]

theorem isSome_drop (s : Store κ α) (k k' : κ) :
    ((s.drop k).slots k').isSome ↔ (s.slots k').isSome ∧ k' ≠ k := by
  by_cases hk : k' = k
  · simp [drop, hk]
  · simp [drop, hk]

/-- What is filled without a key goes again, and the keys do not notice. -/
theorem Ok.discard {s : Store κ α} (h : s.Ok) {data : Option Addr} {len : ℕ} {m : Memory α}
    {slot : Slot} {done : Bool} (hfills : Fills s.memory .empty data len (m, slot, done)) :
    (s.discard m slot).Ok ∧
      ∀ k b, (s.slot k).data = some (.block b 0) →
        (s.discard m slot).memory.blocks b = s.memory.blocks b := by
  have hoption := h.owned.option
  have hfilled := Fills.owned (k := none) hoption hfills
  have hreleased := hfilled.release none
  rw [Function.update_self, Function.update_idem] at hreleased
  refine ⟨⟨hreleased.of_option rfl, h.slotRegs, h.callRegs, h.keys⟩, fun k b hk => ?_⟩
  obtain ⟨cells, -, -, hblock⟩ := h.owned.of_data hk
  have hkept := Fills.blocks (k := none) hoption hfills (b := b) (by rw [hblock]; rfl)
    (by simp [Slot.empty])
  have hother : (Function.update (fun k : Option κ => k.elim .empty s.slot) none slot
      none).data ≠ some (.block b 0) := by
    intro hsame
    cases hfilled.uniq none (some k) b hsame hk
  have hgone := hfilled.release_blocks hother
  rw [Function.update_self] at hgone
  exact hgone.trans hkept

theorem Ok.drop_blocks {s : Store κ α} (h : s.Ok) {k k' : κ} (hne : k' ≠ k) {b : ℕ}
    (hk' : (s.slot k').data = some (.block b 0)) :
    (s.drop k).memory.blocks b = s.memory.blocks b :=
  h.owned.release_blocks fun hk => hne (h.owned.uniq k' k b hk' hk)

theorem Ok.step {s s' : Store κ α} (h : s.Ok) (hstep : Step s s') : s'.Ok := by
  cases hstep with
  | @put k data len m slot done hfills =>
      refine ⟨?_, ?_, ?_, ?_⟩
      · rw [put_slot]
        exact hfills.owned h.owned
      · intro k' slot' reg hk'
        by_cases heq : k' = k
        · simp only [heq, put, Function.update_self, Option.some.injEq, Prod.mk.injEq] at hk'
          exact hk'.2 ▸ Nat.lt_succ_self s.made
        · simp only [put, Function.update_of_ne heq] at hk'
          exact Nat.lt_succ_of_lt (h.slotRegs k' slot' reg hk')
      · intro call hcall
        exact Nat.lt_succ_of_lt (h.callRegs call hcall)
      · intro k' hk'
        by_cases heq : k' = k
        · exact heq ▸ List.mem_cons_self
        · simp only [put, Function.update_of_ne heq] at hk'
          exact List.mem_cons_of_mem k (h.keys k' hk')
  | discard hfills => exact (h.discard hfills).1
  | drop k =>
      refine ⟨?_, ?_, h.callRegs, ?_⟩
      · rw [drop_slot]
        exact h.owned.release k
      · intro k' slot' reg hk'
        by_cases heq : k' = k
        · simp [heq, drop] at hk'
        · simp only [drop, Function.update_of_ne heq] at hk'
          exact h.slotRegs k' slot' reg hk'
      · intro k' hk'
        by_cases heq : k' = k
        · simp [heq, drop] at hk'
        · simp only [drop, Function.update_of_ne heq] at hk'
          exact h.keys k' hk'
  | call k =>
      cases hslot : s.slots k with
      | none =>
          rw [call, hslot]
          exact h
      | some kept =>
          obtain ⟨slot, reg⟩ := kept
          simp only [call, hslot]
          refine ⟨h.owned, h.slotRegs, ?_, h.keys⟩
          intro call hcall
          rcases List.mem_cons.mp hcall with rfl | hcall
          · exact h.slotRegs k slot reg hslot
          · exact h.callRegs call hcall
  | clients cells => exact ⟨h.owned.clients cells, h.slotRegs, h.callRegs, h.keys⟩

theorem Keeps.step {s s' : Store κ α} (hok : s.Ok) {reg : ℕ} {cells : List α}
    (h : s.Keeps reg cells) (hstep : Step s s') : s'.Keeps reg cells := by
  cases hstep with
  | @put k data len m slot done hfills =>
      refine ⟨Nat.lt_succ_of_lt h.made, fun k' slot' hk' => ?_, h.calls⟩
      by_cases heq : k' = k
      · simp only [heq, put, Function.update_self, Option.some.injEq, Prod.mk.injEq] at hk'
        exact absurd hk'.2 h.made.ne'
      · simp only [put, Function.update_of_ne heq] at hk'
        refine (h.held k' slot' hk').of_blocks fun b hb => ?_
        exact hok.put_blocks hfills heq (by rwa [slot_of_slots hk'])
  | discard hfills =>
      refine ⟨h.made, fun k slot hk => ?_, h.calls⟩
      have hk' : s.slots k = some (slot, reg) := hk
      refine (h.held k slot hk').of_blocks fun b hb => ?_
      exact (hok.discard hfills).2 k b (by rwa [slot_of_slots hk'])
  | drop k =>
      refine ⟨h.made, fun k' slot hk' => ?_, h.calls⟩
      by_cases heq : k' = k
      · simp [heq, drop] at hk'
      · simp only [drop, Function.update_of_ne heq] at hk'
        refine (h.held k' slot hk').of_blocks fun b hb => ?_
        exact hok.drop_blocks heq (by rwa [slot_of_slots hk'])
  | call k =>
      cases hslot : s.slots k with
      | none =>
          rw [call, hslot]
          exact h
      | some kept =>
          obtain ⟨slot, reg'⟩ := kept
          simp only [call, hslot]
          refine ⟨h.made, h.held, ?_⟩
          intro call hcall hreg
          rcases List.mem_cons.mp hcall with rfl | hcall
          · obtain rfl : reg' = reg := hreg
            exact (h.held k slot hslot).read
          · exact h.calls call hcall hreg
  | clients cells => exact ⟨h.made, h.held, h.calls⟩

theorem dropAll_steps (s : Store κ α) : Relation.ReflTransGen Step s s.dropAll := by
  unfold dropAll
  induction s.keys generalizing s with
  | nil => exact .refl
  | cons k keys ih => exact .head (.drop k) (ih (s.drop k))

theorem foldl_drop_slots (keys : List κ) (s : Store κ α) (k : κ) :
    (keys.foldl drop s).slots k = if k ∈ keys then none else s.slots k := by
  induction keys generalizing s with
  | nil => simp
  | cons k' keys ih =>
      rw [List.foldl_cons, ih]
      by_cases hmem : k ∈ keys
      · simp [hmem]
      · by_cases heq : k = k'
        · simp [heq, drop]
        · simp [hmem, heq, drop]

/-- After the last key has been dropped nothing is kept. -/
theorem Ok.dropAll_slots {s : Store κ α} (h : s.Ok) (k : κ) : s.dropAll.slots k = none := by
  rw [dropAll, foldl_drop_slots]
  split_ifs with hmem
  · rfl
  · cases hslot : s.slots k with
    | none => rfl
    | some kept => exact (hmem (h.keys k (by rw [hslot]; rfl))).elim

theorem Ok.steps {s s' : Store κ α} (h : s.Ok) (hsteps : Relation.ReflTransGen Step s s') :
    s'.Ok := by
  induction hsteps with
  | refl => exact h
  | tail _ hstep ih => exact ih.step hstep

theorem Keeps.steps {s s' : Store κ α} (hok : s.Ok) {reg : ℕ} {cells : List α}
    (h : s.Keeps reg cells) (hsteps : Relation.ReflTransGen Step s s') :
    s'.Keeps reg cells := by
  induction hsteps with
  | refl => exact h
  | tail hsteps hstep ih => exact ih.step (hok.steps hsteps) hstep

/-- A registration whose length fits its address stands for the cells that were there. -/
theorem Ok.put_keeps {s : Store κ α} (h : s.Ok) {k : κ} {data : Option Addr} {len : ℕ}
    {m : Memory α} {slot : Slot}
    (hfills : Fills s.memory .empty data len (m, slot, true))
    (hfits : data = none ↔ len = 0) :
    ∃ cells, s.memory.read data len = some cells ∧ (s.put k m slot).Keeps s.made cells := by
  obtain ⟨cells, hread, hholds⟩ := hfills.holds hfits
  refine ⟨cells, hread, Nat.lt_succ_self _, fun k' slot' hk' => ?_, fun call hcall hreg => ?_⟩
  · by_cases heq : k' = k
    · simp only [heq, put, Function.update_self, Option.some.injEq, Prod.mk.injEq] at hk'
      exact hk'.1 ▸ hholds
    · simp only [put, Function.update_of_ne heq] at hk'
      exact absurd rfl (h.slotRegs k' slot' _ hk').ne
  · exact absurd hreg (h.callRegs call hcall).ne

/-- **The law of a registration**, whatever happens to the store behind it. -/
theorem Ok.put_law {s s' : Store κ α} (h : s.Ok) {k : κ} (hnew : s.slots k = none)
    {data : Option Addr} {len : ℕ} {m : Memory α} {slot : Slot}
    (hfills : Fills s.memory .empty data len (m, slot, true))
    (hfits : data = none ↔ len = 0)
    (hsteps : Relation.ReflTransGen Step (s.put k m slot) s') :
    s'.Law s.made ⟨data, len, s.memory.read data len⟩ := by
  have hfills' : Fills s.memory (s.slot k) data len (m, slot, true) := by
    rwa [slot_of_none hnew]
  have hput : (s.put k m slot).Ok := h.step (.put hfills')
  refine ⟨fun call hcall hreg => ?_, (hput.steps hsteps).releasedOnce⟩
  obtain ⟨cells, hread, hkeeps⟩ := h.put_keeps (k := k) hfills hfits
  obtain ⟨hlen, hcells⟩ := (hkeeps.steps hput hsteps).calls call hcall hreg
  unfold Call.Faithful
  rw [if_neg fun hobject => hobject.1 (hfits.mpr hobject.2)]
  exact ⟨hlen.trans (Memory.length_of_read hread), hcells.trans hread.symm⟩

end Store

end CopyStore
