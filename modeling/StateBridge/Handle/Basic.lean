set_option autoImplicit false

namespace StateBridge

/-- What a checked step relies on, so that "no caller can break it" is a statement about results. -/
inductive Fault where
  | intOutOfRange
  | payloadTooWide
  | intNotTableBacked
  | freeSlotMissing (index : UInt32)
  | liveCountUnderflow
  | wrongTableKind
  | argumentMissing (position : Nat)
  deriving DecidableEq, Repr

def Fault.message : Fault → String
  | .intOutOfRange => "integer does not fit a handle payload"
  | .payloadTooWide => "handle payload exceeds 56 bits"
  | .intNotTableBacked => "int handles are not table-backed"
  | .freeSlotMissing index => s!"free list names slot {index.toNat}, which does not exist"
  | .liveCountUnderflow => "live counter fell below zero"
  | .wrongTableKind => "handle table returned a handle of the wrong kind"
  | .argumentMissing position => s!"argument {position} was read but not passed"

inductive HandleKind where
  | int
  | threadState
  | dict
  | module
  | object
  deriving DecidableEq, Repr

namespace HandleKind

def all : List HandleKind := [.int, .threadState, .dict, .module, .object]

def tag : HandleKind → UInt8
  | .int => 1
  | .threadState => 2
  | .dict => 3
  | .module => 4
  | .object => 5

def ofTag? (tag : UInt8) : Option HandleKind :=
  all.find? (fun kind => kind.tag == tag)

def name : HandleKind → String
  | .int => "int"
  | .threadState => "thread-state"
  | .dict => "dict"
  | .module => "module"
  | .object => "object"

@[simp] theorem mem_all (kind : HandleKind) : kind ∈ all := by
  cases kind <;> simp [all]

@[simp] theorem ofTag?_tag (kind : HandleKind) : ofTag? kind.tag = some kind := by
  cases kind <;> rfl

theorem ofTag?_eq_some_iff {tag : UInt8} {kind : HandleKind} :
    ofTag? tag = some kind ↔ kind.tag = tag := by
  constructor
  next =>
    intro found
    simpa [ofTag?] using List.find?_some found
  next =>
    intro same
    subst same
    exact ofTag?_tag kind

end HandleKind

structure Handle where
  bits : UInt64
  deriving DecidableEq, Repr

namespace Handle

def payloadCount : UInt64 := 0x0100000000000000

def null : Handle := ⟨0⟩

def isNull (handle : Handle) : Bool := handle.bits == 0

def payload (handle : Handle) : UInt64 := handle.bits % payloadCount

def tag (handle : Handle) : UInt8 := (handle.bits / payloadCount).toUInt8

def kind? (handle : Handle) : Option HandleKind :=
  if handle.isNull then none else HandleKind.ofTag? handle.tag

def isKind (handle : Handle) (kind : HandleKind) : Bool := handle.kind? == some kind

def ofParts (kind : HandleKind) (payload : UInt64) : Except Fault Handle :=
  if payload < payloadCount then
    .ok ⟨kind.tag.toUInt64 * payloadCount + payload⟩
  else
    .error .payloadTooWide

def intMax : Int := 0x7FFFFFFFFFFFFF

def intMin : Int := -0x80000000000000

def ofInt (value : Int) : Except Fault Handle :=
  if intMin ≤ value ∧ value ≤ intMax then
    ofParts .int (UInt64.ofNat (value % payloadCount.toNat).toNat)
  else
    .error .intOutOfRange

def toInt? (handle : Handle) : Option Int :=
  if handle.isKind .int then
    some ((handle.payload.toNat : Int).bmod payloadCount.toNat)
  else
    none

@[simp] theorem isNull_null : null.isNull = true := rfl

@[simp] theorem kind?_null : null.kind? = none := rfl

theorem isNull_iff {handle : Handle} : handle.isNull = true ↔ handle = null := by
  cases handle
  simp [isNull, null]

@[simp] theorem toNat_payloadCount : payloadCount.toNat = 0x0100000000000000 := rfl

theorem tag_eq {handle : Handle} : handle.tag.toNat = handle.bits.toNat / 0x0100000000000000 := by
  have bound := handle.bits.toNat_lt
  simp only [tag, UInt64.toNat_toUInt8, UInt64.toNat_div, toNat_payloadCount]
  omega

theorem payload_eq {handle : Handle} : handle.payload.toNat = handle.bits.toNat % 0x0100000000000000 := by
  simp [payload]

theorem toNat_bits (handle : Handle) :
    handle.bits.toNat = handle.tag.toNat * 0x0100000000000000 + handle.payload.toNat := by
  rw [tag_eq, payload_eq]
  omega

theorem eq_of_parts {first second : Handle} (tags : first.tag = second.tag)
    (payloads : first.payload = second.payload) : first = second := by
  have bits : first.bits = second.bits := by
    apply UInt64.toNat_inj.1
    rw [toNat_bits first, toNat_bits second, tags, payloads]
  cases first
  cases second
  simp_all

theorem ofParts_eq_ok_iff {kind : HandleKind} {payload : UInt64} {handle : Handle} :
    ofParts kind payload = .ok handle ↔
      payload < payloadCount ∧ handle.tag = kind.tag ∧ handle.payload = payload := by
  by_cases fits : payload < payloadCount
  next =>
    have bound : payload.toNat < 0x0100000000000000 := UInt64.lt_iff_toNat_lt.1 fits
    have tagBound := kind.tag.toNat_lt
    let built : Handle := ⟨kind.tag.toUInt64 * payloadCount + payload⟩
    have value : built.bits.toNat = kind.tag.toNat * 0x0100000000000000 + payload.toNat := by
      simp only [built, UInt64.toNat_add, UInt64.toNat_mul, toNat_payloadCount,
        UInt8.toNat_toUInt64]
      omega
    have builtTag : built.tag = kind.tag := UInt8.toNat_inj.1 (by rw [tag_eq, value]; omega)
    have builtPayload : built.payload = payload :=
      UInt64.toNat_inj.1 (by rw [payload_eq, value]; omega)
    simp only [ofParts, fits, if_true, Except.ok.injEq, true_and]
    constructor
    next => intro same; subst same; exact ⟨builtTag, builtPayload⟩
    next =>
      intro parts
      exact eq_of_parts (builtTag.trans parts.1.symm) (builtPayload.trans parts.2.symm)
  next => simp [ofParts, fits]

theorem isKind_iff {handle : Handle} {kind : HandleKind} :
    handle.isKind kind = true ↔ handle.kind? = some kind := by
  simp [isKind]

end Handle

end StateBridge
