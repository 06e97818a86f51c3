import StateBridge.Module.Index
import StateBridge.Proofs.Handle.Layout

set_option autoImplicit false

namespace StateBridge

namespace Handle

theorem bmod_emod_of_bounds {value : Int} (lower : intMin ≤ value) (upper : value ≤ intMax) :
    (value % payloadCount.toNat).bmod payloadCount.toNat = value := by
  -- Reading a payload with its top bit as the sign undoes the reduction to two's complement.
  rw [Int.emod_bmod, toNat_payloadCount]
  unfold intMin at lower
  unfold intMax at upper
  apply Int.bmod_eq_of_le <;> omega

theorem ofInt_eq_ok {value : Int} (lower : intMin ≤ value) (upper : value ≤ intMax) :
    ∃ handle, ofInt value = .ok handle ∧ handle.kind? = some .int ∧ handle.toInt? = some value := by
  have nonneg : 0 ≤ value % payloadCount.toNat := Int.emod_nonneg _ (by decide)
  have below : value % payloadCount.toNat < payloadCount.toNat := Int.emod_lt_of_pos _ (by decide)
  let payload := UInt64.ofNat (value % payloadCount.toNat).toNat
  have read : payload.toNat = (value % payloadCount.toNat).toNat := by
    apply UInt64.toNat_ofNat_of_lt'
    simp only [toNat_payloadCount, UInt64.size] at nonneg below ⊢
    omega
  have fits : payload < payloadCount := by
    rw [UInt64.lt_iff_toNat_lt, read]
    omega
  have built : ofInt value = ofParts .int payload := by
    rw [ofInt, if_pos ⟨lower, upper⟩]
  obtain ⟨handle, made⟩ : ∃ handle, ofParts .int payload = .ok handle := by
    simp [ofParts, fits]
  obtain ⟨-, tagged, carried⟩ := ofParts_eq_ok_iff.1 made
  have ofKind := kind?_of_tag tagged
  refine ⟨handle, built.trans made, ofKind, ?_⟩
  rw [toInt?, if_pos (isKind_iff.2 ofKind), carried, read, Int.toNat_of_nonneg nonneg,
    bmod_emod_of_bounds lower upper]

end Handle

namespace ModuleIndex

theorem Fits.ofInt {index : ModuleIndex} (fits : index.Fits) :
    ∃ handle, Handle.ofInt index.value = .ok handle ∧ handle.kind? = some .int ∧
      ofHandle? handle = some index := by
  have lower : Handle.intMin ≤ index.value := by
    unfold Handle.intMin
    omega
  have upper : (index.value : Int) ≤ Handle.intMax := by
    unfold Fits Handle.intMax at fits
    unfold Handle.intMax
    omega
  obtain ⟨handle, made, ofKind, read⟩ := Handle.ofInt_eq_ok lower upper
  exact ⟨handle, made, ofKind, by simp [ofHandle?, read]⟩

theorem Fits.toHandle? {index : ModuleIndex} (fits : index.Fits) :
    ∃ handle, index.toHandle? = some (.ok handle) ∧ ofHandle? handle = some index := by
  obtain ⟨handle, made, -, read⟩ := fits.ofInt
  exact ⟨handle, by rw [ModuleIndex.toHandle?, if_pos fits, made], read⟩

theorem toHandle?_of_not_fits {index : ModuleIndex} (wide : ¬ index.Fits) :
    index.toHandle? = none :=
  if_neg wide

end ModuleIndex

end StateBridge
