import StateBridge.Handle.Table

set_option autoImplicit false

namespace StateBridge

namespace Handle

theorem payload_lt (handle : Handle) : handle.payload.toNat < 0x0100000000000000 := by
  rw [payload_eq]
  omega

theorem kind?_of_tag {handle : Handle} {kind : HandleKind} (tagged : handle.tag = kind.tag) :
    handle.kind? = some kind := by
  have notNull : handle ≠ null := by
    intro same
    subst same
    cases kind <;> exact absurd tagged (by decide)
  rw [kind?, if_neg (mt isNull_iff.1 notNull), tagged]
  exact HandleKind.ofTag?_tag kind

theorem tag_of_kind? {handle : Handle} {kind : HandleKind} (found : handle.kind? = some kind) :
    handle.tag = kind.tag := by
  unfold kind? at found
  split at found
  next => cases found
  next => exact (HandleKind.ofTag?_eq_some_iff.1 found).symm

theorem ne_null_of_kind? {handle : Handle} {kind : HandleKind} (found : handle.kind? = some kind) :
    handle ≠ null := by
  intro same
  subst same
  cases found

end Handle

namespace TableKey

def handle (key : TableKey) : Handle :=
  ⟨key.kind.tag.toUInt64 * Handle.payloadCount + key.payload⟩

theorem encode_eq (key : TableKey) : key.encode = .ok key.handle := by
  simp [encode, Handle.ofParts, key.payload_lt, handle]

theorem tag_handle (key : TableKey) : key.handle.tag = key.kind.tag :=
  (Handle.ofParts_eq_ok_iff.1 key.encode_eq).2.1

theorem payload_handle (key : TableKey) : key.handle.payload = key.payload :=
  (Handle.ofParts_eq_ok_iff.1 key.encode_eq).2.2

@[simp] theorem kind?_handle (key : TableKey) : key.handle.kind? = some key.kind :=
  Handle.kind?_of_tag key.tag_handle

theorem index_of_payload (key : TableKey) : (key.payload % indexCount).toUInt32 = key.index := by
  have indexBound := key.index.toNat_lt
  have width : indexCount.toNat = 0x010000000000 := rfl
  apply UInt32.toNat_inj.1
  rw [UInt64.toNat_toUInt32, UInt64.toNat_mod, width, toNat_payload]
  omega

theorem generation_of_payload (key : TableKey) :
    (key.payload / indexCount).toUInt16 = key.generation := by
  have indexBound := key.index.toNat_lt
  have generationBound := key.generation.toNat_lt
  have width : indexCount.toNat = 0x010000000000 := rfl
  apply UInt16.toNat_inj.1
  rw [UInt64.toNat_toUInt16, UInt64.toNat_div, width, toNat_payload]
  omega

theorem index_le_of_payload (key : TableKey) : ¬ key.payload % indexCount > 0xFFFFFFFF := by
  have indexBound := key.index.toNat_lt
  have width : indexCount.toNat = 0x010000000000 := rfl
  have limit : (0xFFFFFFFF : UInt64).toNat = 0xFFFFFFFF := rfl
  rw [gt_iff_lt, UInt64.lt_iff_toNat_lt, UInt64.toNat_mod, width, limit, toNat_payload]
  omega

theorem handle_injective {first second : TableKey} (same : first.handle = second.handle) :
    first = second := by
  have kinds := congrArg Handle.kind? same
  have payloads := congrArg Handle.payload same
  rw [kind?_handle, kind?_handle, Option.some.injEq] at kinds
  rw [payload_handle, payload_handle] at payloads
  have indices := first.index_of_payload
  have generations := first.generation_of_payload
  rw [payloads, index_of_payload] at indices
  rw [payloads, generation_of_payload] at generations
  cases first
  cases second
  simp_all

theorem decode?_handle {key : TableKey} (tabled : key.kind ≠ .int) (issued : key.generation ≠ 0) :
    decode? key.handle = some key := by
  simp [decode?, tabled, payload_handle, index_of_payload, generation_of_payload,
    key.index_le_of_payload, issued]

theorem handle_of_decode? {handle : Handle} {key : TableKey} (found : decode? handle = some key) :
    key.handle = handle ∧ key.kind ≠ .int ∧ key.generation ≠ 0 := by
  simp only [decode?, Option.bind_eq_bind, Option.bind_eq_some_iff] at found
  obtain ⟨kind, kindFound, found⟩ := found
  split at found
  next => cases found
  next tabled =>
  split at found
  next => cases found
  next legal =>
  cases found
  have width : indexCount.toNat = 0x010000000000 := rfl
  have limit : (0xFFFFFFFF : UInt64).toNat = 0xFFFFFFFF := rfl
  have bound := handle.payload_lt
  simp only [not_or, gt_iff_lt, UInt64.lt_iff_toNat_lt, UInt64.toNat_mod, width, limit] at legal
  have payload : (TableKey.mk kind (handle.payload % indexCount).toUInt32
      (handle.payload / indexCount).toUInt16).payload = handle.payload := by
    apply UInt64.toNat_inj.1
    rw [toNat_payload, UInt64.toNat_toUInt16, UInt64.toNat_toUInt32, UInt64.toNat_div,
      UInt64.toNat_mod, width]
    omega
  refine ⟨Handle.eq_of_parts ?_ ?_, tabled, legal.1⟩
  next => rw [tag_handle, Handle.tag_of_kind? kindFound]
  next => rw [payload_handle, payload]

end TableKey

end StateBridge
