import StateBridge.Proofs.Bridge.Answers
import StateBridge.Proofs.Module.Calls
import StateBridge.Proofs.Native.Aborts

set_option autoImplicit false

namespace StateBridge

def Handle.CarriesIndex (handle : Handle) : Prop := ∃ value, handle.toInt? = some value ∧ 1 ≤ value

theorem Handle.carriesIndex_iff {handle : Handle} :
    handle.CarriesIndex ↔ ∃ index, ModuleIndex.ofHandle? handle = some index :=
  UpcallOp.accepts_assign_iff

instance Handle.decidableCarriesIndex (handle : Handle) : Decidable handle.CarriesIndex :=
  decidable_of_iff _ (Option.isSome_iff_exists.trans carriesIndex_iff.symm)

namespace HostQuery

-- First the number of the arguments, then the index, and only then the object that they name.
def complaint (op : UpcallOp) (args : List Handle) : ArgumentProblem :=
  if args.length ≠ arity op then .wrongCount (arity op) args.length
  else match op, args with
    | .findModuleByIndex, _ | .removeModuleByIndex, _ => .indexNotPositive
    | .addModuleByIndex, [_, index] => if index.CarriesIndex then .notLiveModule else .indexNotPositive
    | _, _ => .notLiveThreadState

def refusal : UpcallOp → List Handle → UpcallError
  | .resolveCurrentThreadState, [] => .noThreadState
  | .assignModuleIndex, [] => .indexSpaceExhausted
  | op, args => .invalidArgument op (complaint op args)

end HostQuery

namespace Host

variable {host : Host} {thread : ThreadId}

def Admits (host : Host) (thread : ThreadId) : UpcallOp → List Handle → Prop
  | .resolveCurrentThreadState, [] =>
    (∃ state, host.threads.find? thread = some state) ∨ host.explicitAttach = false
  | .threadStateDict, [state] => ∃ dict?, host.objects.get? state = some (.threadState dict?)
  | .findModuleByIndex, [index] | .removeModuleByIndex, [index] => index.CarriesIndex
  | .addModuleByIndex, [module, index] =>
    (∃ name, host.objects.get? module = some (.module name)) ∧ index.CarriesIndex
  | .assignModuleIndex, [] => (host.highestIndex : Int) < Handle.intMax
  | _, _ => False

def Settles (host : Host) (outcome : Except Fault (Except UpcallError Handle × Host))
    (admitted : Prop) (error : UpcallError) : Prop :=
  (admitted → ∃ handle after, outcome = .ok (.ok handle, after)) ∧
    (¬ admitted → outcome = .ok (.error error, host))

theorem Settles.answers {outcome : Except Fault (Except UpcallError Handle × Host)}
    {admitted : Prop} {error : UpcallError} {handle : Handle} {after : Host}
    (holds : admitted) (answered : outcome = .ok (.ok handle, after)) :
    host.Settles outcome admitted error :=
  ⟨fun _ => ⟨handle, after, answered⟩, fun fails => absurd holds fails⟩

theorem Settles.refuses {outcome : Except Fault (Except UpcallError Handle × Host)}
    {admitted : Prop} {error : UpcallError} (fails : ¬ admitted)
    (answered : outcome = .ok (.error error, host)) : host.Settles outcome admitted error :=
  ⟨fun holds => absurd holds fails, fun _ => answered⟩

theorem Tagged.settles_resolve (tagged : host.Tagged) (thread : ThreadId) :
    host.Settles (host.answer thread .resolve)
      ((∃ state, host.threads.find? thread = some state) ∨ host.explicitAttach = false)
      .noThreadState := by
  unfold Host.answer
  cases owned : host.threads.find? thread with
  | some state => exact .answers (.inl ⟨state, rfl⟩) rfl
  | none =>
    by_cases waits : host.explicitAttach = false
    next =>
      obtain ⟨state, after, made, -⟩ := tagged.newThreadState thread
      simp only [waits, made]
      exact .answers (by simp) rfl
    next =>
      simp only [waits]
      exact .refuses (by simp) rfl

theorem Tagged.settles_dictOf (tagged : host.Tagged) (thread : ThreadId) (state : Handle) :
    host.Settles (host.answer thread (.dictOf state))
      (∃ dict?, host.objects.get? state = some (.threadState dict?))
      (.invalidArgument .threadStateDict .notLiveThreadState) := by
  unfold Host.answer
  cases found : host.objects.get? state with
  | none =>
    simp only [found]
    exact .refuses (by simp) rfl
  | some value =>
    cases value with
    | threadState dict? =>
      cases dict? with
      | some dict =>
        simp only [found]
        exact .answers ⟨some dict, rfl⟩ rfl
      | none =>
        let fresh : ManagedValue := .dict .empty
        obtain ⟨dict, objects, stored⟩ := tagged.objects.sound.insert_ok fresh fresh.kind_ne_int
        change host.objects.insert .dict (.dict .empty) = _ at stored
        simp only [found, stored]
        exact .answers ⟨none, rfl⟩ rfl
    | dict entries =>
      simp only [found]
      exact .refuses (by simp) rfl
    | module name =>
      simp only [found]
      exact .refuses (by simp) rfl

theorem Tagged.liveModule?_iff (tagged : host.Tagged) (handle : Handle) :
    (∃ module, host.liveModule? handle = some module) ↔
      ∃ name, host.objects.get? handle = some (.module name) := by
  simp only [liveModule?_eq_some_iff, moduleName?_isSome_iff]
  constructor
  next =>
    rintro ⟨module, rfl, named⟩
    exact named
  next =>
    rintro ⟨name, found⟩
    exact ⟨⟨handle, (tagged.objects.get? found).1⟩, rfl, name, found⟩

theorem Tagged.settles_add (tagged : host.Tagged) (thread : ThreadId) (handle : Handle)
    (index : ModuleIndex) :
    host.Settles (host.answer thread (.add handle index))
      (∃ name, host.objects.get? handle = some (.module name))
      (.invalidArgument .addModuleByIndex .notLiveModule) := by
  rw [← tagged.liveModule?_iff]
  unfold Host.answer
  cases live : host.liveModule? handle with
  | some module =>
    simp only [live]
    exact .answers ⟨module, rfl⟩ rfl
  | none =>
    simp only [live]
    exact .refuses (by simp) rfl

theorem settles_assign (host : Host) (thread : ThreadId) :
    host.Settles (host.answer thread .assign) ((host.highestIndex : Int) < Handle.intMax)
      .indexSpaceExhausted := by
  have room : (host.highestIndex : Int) < Handle.intMax ↔ host.upperIndex.Fits := by
    unfold ModuleIndex.Fits Handle.intMax
    simp only [upperIndex]
    omega
  rw [room]
  unfold Host.answer nextIndex?
  by_cases fits : host.upperIndex.Fits
  next =>
    obtain ⟨handle, made, -⟩ := fits.ofInt
    simp only [if_pos fits, made]
    exact .answers fits rfl
  next =>
    simp only [if_neg fits]
    exact .refuses fits rfl

theorem Settles.ofIndex {op : UpcallOp} {query : ModuleIndex → HostQuery} {admitted : Prop}
    {problem : ArgumentProblem}
    (settles : ∀ index, host.Settles (host.answer thread (query index)) admitted
      (.invalidArgument op problem)) (handle : Handle) :
    host.Settles
      (match HostQuery.ofIndex op handle query with
        | .ok query => host.answer thread query
        | .error error => .ok (.error error, host))
      (admitted ∧ handle.CarriesIndex)
      (.invalidArgument op (if handle.CarriesIndex then problem else .indexNotPositive)) := by
  unfold HostQuery.ofIndex
  cases read : ModuleIndex.ofHandle? handle with
  | some index =>
    have carries : handle.CarriesIndex := Handle.carriesIndex_iff.2 ⟨index, read⟩
    simpa [carries] using settles index
  | none =>
    have none_such : ¬ handle.CarriesIndex := by
      rw [Handle.carriesIndex_iff, read]
      simp
    exact .refuses (fun both => none_such both.2) (by simp [none_such])

theorem Tagged.settles_invoke (tagged : host.Tagged) (thread : ThreadId) (op : UpcallOp)
    (args : List Handle) :
    host.Settles (host.invoke thread op args) (host.Admits thread op args)
      (HostQuery.refusal op args) := by
  have find (index : ModuleIndex) : host.Settles (host.answer thread (.find index)) True
      (.invalidArgument .findModuleByIndex .indexNotPositive) := .answers trivial rfl
  have remove (index : ModuleIndex) : host.Settles (host.answer thread (.remove index)) True
      (.invalidArgument .removeModuleByIndex .indexNotPositive) := .answers trivial rfl
  rw [invoke_eq]
  cases op with
  | resolveCurrentThreadState =>
    cases args with
    | nil => exact tagged.settles_resolve thread
    | cons => exact .refuses nofun rfl
  | threadStateDict =>
    rcases args with _ | ⟨state, _ | ⟨other, rest⟩⟩
    next => exact .refuses nofun rfl
    next => exact tagged.settles_dictOf thread state
    next => exact .refuses nofun rfl
  | findModuleByIndex =>
    rcases args with _ | ⟨handle, _ | ⟨other, rest⟩⟩
    next => exact .refuses nofun rfl
    next =>
      have settles := Settles.ofIndex find handle
      rw [true_and, ite_self] at settles
      exact settles
    next => exact .refuses nofun rfl
  | addModuleByIndex =>
    rcases args with _ | ⟨module, _ | ⟨handle, _ | ⟨other, rest⟩⟩⟩
    next => exact .refuses nofun rfl
    next => exact .refuses nofun rfl
    next => exact Settles.ofIndex (tagged.settles_add thread module) handle
    next => exact .refuses nofun rfl
  | removeModuleByIndex =>
    rcases args with _ | ⟨handle, _ | ⟨other, rest⟩⟩
    next => exact .refuses nofun rfl
    next =>
      have settles := Settles.ofIndex remove handle
      rw [true_and, ite_self] at settles
      exact settles
    next => exact .refuses nofun rfl
  | assignModuleIndex =>
    cases args with
    | nil => exact settles_assign host thread
    | cons => exact .refuses nofun rfl

-- Any other upcall is refused for the first thing wrong with it, and leaves the host as it was.
theorem Reached.invoke_ok_iff_admits (reached : host.Reached) (thread : ThreadId) (op : UpcallOp)
    (args : List Handle) :
    ((∃ handle after, host.invoke thread op args = .ok (.ok handle, after)) ↔
      host.Admits thread op args) ∧
    (¬ host.Admits thread op args →
      host.invoke thread op args = .ok (.error (HostQuery.refusal op args), host)) := by
  obtain ⟨answers, refuses⟩ := reached.tagged.settles_invoke thread op args
  refine ⟨⟨?_, answers⟩, refuses⟩
  rintro ⟨handle, after, answered⟩
  by_contra unadmitted
  rw [refuses unadmitted] at answered
  cases answered

-- A module is added from another thread, and no index is above the highest one.
theorem Reached.invoke_ok_iff_admits_last_index :
    let host : Host :=
      ⟨⟨#[⟨some (.threadState none), .threadState, 1⟩, ⟨some (.module "m"), .module, 1⟩], [], 2⟩,
        FiniteMap.empty.insert ⟨0⟩ ⟨0x0200010000000000⟩, .empty, 36028797018963967, true⟩
    let module : ModuleHandle := ⟨⟨0x0400010000000001⟩, by decide⟩
    let index : ModuleIndex := ⟨3, by decide⟩
    let args : List Handle := [module.handle, ⟨0x0100000000000003⟩]
    host.Reached ∧ host.Admits ⟨1⟩ .addModuleByIndex args ∧
      (∃ after, host.invoke ⟨1⟩ .addModuleByIndex args = .ok (.ok .null, after) ∧
        after.registeredModule? index = some module) ∧
      ¬ host.Admits ⟨1⟩ .assignModuleIndex [] ∧
      host.invoke ⟨1⟩ .assignModuleIndex [] = .ok (.error .indexSpaceExhausted, host) := by
  intro host module index args
  have attached := @Reached.called _ _ ⟨0⟩ .attach _ (.new true) rfl
  have loaded := @Reached.called _ _ ⟨0⟩ (.newModule "m") _ attached rfl
  have reached : host.Reached :=
    @Reached.called _ _ ⟨0⟩ (.invoke .findModuleByIndex [⟨0x017fffffffffffff⟩]) _ loaded rfl
  have admitted : host.Admits ⟨1⟩ .addModuleByIndex args :=
    ⟨⟨"m", moduleName?_eq_some_iff.1 (by decide +kernel)⟩, 3, by decide +kernel, by decide⟩
  have refused : ¬ (host.highestIndex : Int) < Handle.intMax := by decide
  have computed : (host.invoke ⟨1⟩ .addModuleByIndex args).map (fun outcome =>
      (outcome.1, outcome.2.registeredModule? index)) = .ok (.ok .null, some module) := by
    decide +kernel
  obtain ⟨handle, after, ran⟩ := (reached.invoke_ok_iff_admits ⟨1⟩ .addModuleByIndex args).1.2 admitted
  rw [ran] at computed
  have same : (.ok handle : Except UpcallError Handle) = .ok .null :=
    congrArg Prod.fst (Except.ok.inj computed)
  have entry : after.registeredModule? index = some module :=
    congrArg Prod.snd (Except.ok.inj computed)
  rw [same] at ran
  exact ⟨reached, admitted, ⟨after, ran, entry⟩, refused,
    (reached.invoke_ok_iff_admits ⟨1⟩ .assignModuleIndex []).2 refused⟩

end Host

end StateBridge
