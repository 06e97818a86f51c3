import StateBridge.Handle.Basic

set_option autoImplicit false

namespace StateBridge

structure TableKey where
  kind : HandleKind
  index : UInt32
  generation : UInt16
  deriving DecidableEq, Repr

namespace TableKey

-- The index has 40 bits of a payload to itself, of which the upper eight are never set.
def indexCount : UInt64 := 0x0000010000000000

def payload (key : TableKey) : UInt64 :=
  key.generation.toUInt64 * indexCount + key.index.toUInt64

def encode (key : TableKey) : Except Fault Handle :=
  Handle.ofParts key.kind key.payload

def decode? (handle : Handle) : Option TableKey := do
  let kind ← handle.kind?
  if kind = .int then none
  else
    let index := handle.payload % indexCount
    let generation := (handle.payload / indexCount).toUInt16
    if generation = 0 ∨ index > 0xFFFFFFFF then none
    else some ⟨kind, index.toUInt32, generation⟩

theorem toNat_payload (key : TableKey) :
    key.payload.toNat = key.generation.toNat * 0x010000000000 + key.index.toNat := by
  have generationBound := key.generation.toNat_lt
  have indexBound := key.index.toNat_lt
  have width : indexCount.toNat = 0x010000000000 := rfl
  simp only [payload, UInt64.toNat_add, UInt64.toNat_mul, width, UInt16.toNat_toUInt64,
    UInt32.toNat_toUInt64]
  omega

theorem payload_lt (key : TableKey) : key.payload < Handle.payloadCount := by
  have generationBound := key.generation.toNat_lt
  have indexBound := key.index.toNat_lt
  rw [UInt64.lt_iff_toNat_lt, toNat_payload, Handle.toNat_payloadCount]
  omega

end TableKey

-- Generations count upwards, wrap, and leave out zero.
def nextGeneration (generation : UInt16) : UInt16 :=
  if generation + 1 = 0 then 1 else generation + 1

theorem nextGeneration_ne_zero (generation : UInt16) : nextGeneration generation ≠ 0 := by
  unfold nextGeneration
  split
  next => decide
  next nonzero => exact nonzero

structure Slot (α : Type) where
  value? : Option α
  kind : HandleKind
  generation : UInt16
  deriving Repr

/-- Slots for managed values. A removed entry leaves its slot on `free`, topmost first. -/
structure HandleTable (α : Type) where
  slots : Array (Slot α)
  free : List UInt32
  live : Nat
  deriving Repr

namespace HandleTable

variable {α : Type}

def empty : HandleTable α := ⟨#[], [], 0⟩

instance : Inhabited (HandleTable α) := ⟨empty⟩

def size (table : HandleTable α) : Nat := table.live

def isEmpty (table : HandleTable α) : Bool := table.live == 0

def slotIndex? (table : HandleTable α) (handle : Handle) : Option Nat := do
  let key ← TableKey.decode? handle
  let slot ← table.slots[key.index.toNat]?
  if slot.generation = key.generation ∧ slot.kind = key.kind ∧ slot.value?.isSome then
    some key.index.toNat
  else
    none

def get? (table : HandleTable α) (handle : Handle) : Option α := do
  let index ← table.slotIndex? handle
  let slot ← table.slots[index]?
  slot.value?

def contains (table : HandleTable α) (handle : Handle) : Bool :=
  (table.slotIndex? handle).isSome

def insert (table : HandleTable α) (kind : HandleKind) (value : α) :
    Except Fault (Handle × HandleTable α) :=
  if kind = .int then .error .intNotTableBacked
  else
    match table with
    | ⟨slots, index :: free, live⟩ =>
      if inside : index.toNat < slots.size then
        let generation := nextGeneration slots[index.toNat].generation
        let slots := slots.set index.toNat ⟨some value, kind, generation⟩
        return (← TableKey.encode ⟨kind, index, generation⟩, ⟨slots, free, live + 1⟩)
      else
        .error (.freeSlotMissing index)
    | ⟨slots, [], live⟩ =>
      let index := slots.size.toUInt32
      let slots := slots.push ⟨some value, kind, 1⟩
      return (← TableKey.encode ⟨kind, index, 1⟩, ⟨slots, [], live + 1⟩)

def set (table : HandleTable α) (handle : Handle) (value : α) : HandleTable α :=
  match table.slotIndex? handle with
  | none => table
  | some index =>
    { table with slots := table.slots.modify index fun slot => { slot with value? := some value } }

def remove (table : HandleTable α) (handle : Handle) :
    Except Fault (Option α × HandleTable α) :=
  match table.slotIndex? handle with
  | none => .ok (none, table)
  | some index =>
    match table with
    | ⟨slots, free, live⟩ =>
      if live = 0 then .error .liveCountUnderflow
      else
        let value? := slots[index]?.bind Slot.value?
        let slots := slots.modify index fun slot =>
          { slot with value? := none, generation := nextGeneration slot.generation }
        .ok (value?, ⟨slots, index.toUInt32 :: free, live - 1⟩)

end HandleTable

end StateBridge
