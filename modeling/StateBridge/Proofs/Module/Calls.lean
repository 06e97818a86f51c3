import StateBridge.Proofs.Handle.Inline
import StateBridge.Proofs.Host.Tags
import StateBridge.Proofs.Module.Model

set_option autoImplicit false

namespace StateBridge

namespace Host

variable {host : Host}

theorem runtime_assign (fits : host.upperIndex.Fits) (thread : ThreadId) :
    ∃ handle, handle.kind? = some .int ∧ ModuleIndex.ofHandle? handle = some host.upperIndex ∧
      runtime thread .assignModuleIndex [] host =
        .ok (.ok handle, { host with highestIndex := host.upperIndex.value }) := by
  obtain ⟨handle, made, ofKind, read⟩ := fits.ofInt
  refine ⟨handle, ofKind, read, ?_⟩
  have next : host.nextIndex? = some host.upperIndex := if_pos fits
  have invoked := invoke_of_query (HostQuery.run_decode_assign []) host thread
  rw [runtime, invoked]
  simp only [answer, next, made]
  rfl

theorem runtime_exhausted (wide : ¬ host.upperIndex.Fits) (thread : ThreadId) :
    runtime thread .assignModuleIndex [] host = .ok (.error .indexSpaceExhausted, host) := by
  have next : host.nextIndex? = none := if_neg wide
  have invoked := invoke_of_query (HostQuery.run_decode_assign []) host thread
  rw [runtime, invoked]
  simp only [answer, next]
  rfl

theorem runtime_add {module : ModuleHandle} {argument handle : Handle} {index : ModuleIndex}
    (live : host.liveModule? argument = some module) (read : ModuleIndex.ofHandle? handle = some index)
    (thread : ThreadId) : runtime thread .addModuleByIndex [argument, handle] host =
      .ok (.ok (moduleAnswer (host.modules.find? index)),
        { host.noteIndex index with modules := (host.modules.insert index module).2 }) := by
  have decoded := HostQuery.run_decode_add [argument, handle]
  simp only [read] at decoded
  rw [runtime, invoke_of_query decoded]
  simp only [answer, live]
  rfl

theorem runtime_add_of_none {argument handle : Handle} {index : ModuleIndex}
    (dead : host.liveModule? argument = none) (read : ModuleIndex.ofHandle? handle = some index)
    (thread : ThreadId) : runtime thread .addModuleByIndex [argument, handle] host =
      .ok (.error (.invalidArgument .addModuleByIndex .notLiveModule), host) := by
  have decoded := HostQuery.run_decode_add [argument, handle]
  simp only [read] at decoded
  rw [runtime, invoke_of_query decoded]
  simp only [answer, dead]
  rfl

end Host

structure Shared.Represents (shared : Shared Host) (map : ModuleMap) : Prop where
  tagged : shared.world.Tagged
  entry : ∀ index, shared.world.modules.find? index = map.entry index
  definition : shared.definition = map.definition
  live : ∀ module : ModuleHandle, module ∈ map.live ↔
    ∃ name, shared.world.objects.get? module.handle = some (.module name)
  highest : shared.world.highestIndex = map.highest

def BridgeCall.Gives {ε α : Type} (call : BridgeCall ε α) (thread : ThreadId) (shared : Shared Host)
    (expected : Except ε α × ModuleMap) : Prop :=
  ∃ after, call.eval Host.runtime thread shared = .ok (expected.1, after) ∧
    after.Represents expected.2

def BridgeCall.placeModule (module : ModuleHandle) (index : ModuleIndex) :
    BridgeCall UpcallError (Option ModuleHandle) := do
  let argument ← indexArgument .addModuleByIndex index
  let answer ← ask .addModuleByIndex [module.handle, argument]
  optionalModule .addModuleByIndex answer

def BridgeCall.reportPlaced (module : ModuleHandle) (index : ModuleIndex) :
    Option ModuleHandle → BridgeCall ApiError Unit
  | some previous =>
    if previous = module then throw (.moduleAlreadyAdded index)
    else note (.replaced module.handle previous.handle index)
  | none => note (.added module.handle index)

theorem BridgeCall.eval_reportPlaced {World : Type} {runtime : Runtime World} {thread : ThreadId}
    {shared : Shared World} (module : ModuleHandle) (index : ModuleIndex)
    (previous? : Option ModuleHandle) :
    (reportPlaced module index previous?).eval runtime thread shared =
      .ok (if previous? = some module then .error (.moduleAlreadyAdded index) else .ok (), shared) := by
  cases previous? with
  | none => rfl
  | some previous =>
    unfold reportPlaced
    by_cases same : previous = module
    next => simp [same]
    next => simp [same]

theorem BridgeCall.addModule_eq (module : ModuleHandle) (definition : DefinitionId) :
    addModule module (some definition) = (do
      let found ← look definition
      if found.hasSlots then throw (.moduleHasSlots addModuleFunction)
      else
        let index ← asApi (initModuleDefinition definition)
        let previous? ← asApi (placeModule module index)
        reportPlaced module index previous?) := by
  simp only [placeModule, asApi_bind, bind_assoc]
  rfl

theorem BridgeCall.optionalModule_moduleAnswer (op : UpcallOp) (module? : Option ModuleHandle) :
    optionalModule op (Host.moduleAnswer module?) = .ok module? := by
  cases module? with
  | none => rfl
  | some module =>
    have present : module.handle.isNull = false := by
      rw [← Bool.not_eq_true, Handle.isNull_iff]
      exact Handle.ne_null_of_kind? module.isKind
    simp [optionalModule, expectOptionalKind, expectKind, Host.moduleAnswer, present,
      Handle.isKind_iff.2 module.isKind, Except.map]

namespace Shared

open BridgeCall

def noteIndex (shared : Shared Host) (index : ModuleIndex) : Shared Host :=
  { shared with world := shared.world.noteIndex index }

variable {shared : Shared Host} {map : ModuleMap} {thread : ThreadId} {index : ModuleIndex}

theorem Represents.liveModule? (represents : shared.Represents map) (module : ModuleHandle) :
    shared.world.liveModule? module.handle = if module ∈ map.live then some module else none := by
  have live := represents.live module
  unfold Host.liveModule?
  cases found : shared.world.objects.get? module.handle with
  | none => simp [found] at live; simp [live]
  | some value => cases value <;> simp [found] at live <;> simp [live]

theorem Represents.noteIndex (represents : shared.Represents map) (index : ModuleIndex) :
    (shared.noteIndex index).Represents (map.noteIndex index) :=
  ⟨⟨represents.tagged.objects, represents.tagged.threads⟩, represents.entry, represents.definition,
    represents.live, congrArg (max · index.value) represents.highest⟩

theorem Represents.setEntry (represents : shared.Represents map) {modules : ModuleRegistry}
    {module? : Option ModuleHandle} (stored : ∀ other, modules.find? other =
      if other = index then module? else shared.world.modules.find? other) :
    { shared with world := { shared.world.noteIndex index with modules } }.Represents
      (map.setEntry index module?) := by
  have noted := represents.noteIndex index
  refine ⟨⟨noted.tagged.objects, noted.tagged.threads⟩, ?_, noted.definition, noted.live,
    noted.highest⟩
  intro other
  rw [stored, represents.entry]
  simp only [ModuleMap.setEntry, Function.update_apply]

theorem eval_findModuleByIndex (shared : Shared Host) (thread : ThreadId) (index : ModuleIndex) :
    (findModuleByIndex index).eval Host.runtime thread shared =
      .ok (.ok (if index.Fits then shared.world.modules.find? index else none),
        if index.Fits then shared.noteIndex index else shared) := by
  unfold findModuleByIndex
  by_cases fits : index.Fits
  next =>
    obtain ⟨handle, carried, read⟩ := fits.toHandle?
    have decoded := HostQuery.run_decode_find [handle]
    simp only [read] at decoded
    have answered := Host.invoke_of_query decoded shared.world thread
    simp only [carried, if_pos fits]
    rw [eval_bind_of_ok rfl, eval_bind_of_ok (eval_ask answered), optionalModule_moduleAnswer]
    rfl
  next =>
    simp only [ModuleIndex.toHandle?_of_not_fits fits, if_neg fits]
    rfl

theorem Represents.findByIndex (represents : shared.Represents map) (thread : ThreadId)
    (index : ModuleIndex) : (BridgeCall.findModuleByIndex index).Gives thread shared
      (.ok (map.findByIndex index).1, (map.findByIndex index).2) := by
  refine ⟨if index.Fits then shared.noteIndex index else shared, ?_, ?_⟩
  next =>
    rw [eval_findModuleByIndex, represents.entry, ModuleMap.findByIndex]
    split <;> rfl
  next =>
    rw [ModuleMap.findByIndex]
    split
    next => exact represents.noteIndex index
    next => exact represents

theorem Represents.find (represents : shared.Represents map) (thread : ThreadId)
    (definition : DefinitionId) : (BridgeCall.findModule definition).Gives thread shared
      (.ok (map.find definition).1, (map.find definition).2) := by
  unfold BridgeCall.findModule ModuleMap.find BridgeCall.Gives
  rw [eval_bind_of_ok (eval_look definition), represents.definition]
  cases (map.definition definition).hasSlots with
  | true => exact ⟨shared, rfl, represents⟩
  | false =>
    cases (map.definition definition).index? with
    | none => exact ⟨shared, rfl, represents⟩
    | some index => exact represents.findByIndex thread index

theorem Represents.init (represents : shared.Represents map) (thread : ThreadId)
    (definition : DefinitionId) :
    (initModuleDefinition definition).Gives thread shared (map.init definition) := by
  unfold initModuleDefinition ModuleMap.init Gives
  rw [eval_bind_of_ok (eval_look definition), represents.definition]
  cases unassigned : (map.definition definition).index? with
  | some index =>
    simp only [unassigned]
    exact ⟨shared, rfl, represents⟩
  | none =>
    simp only [unassigned, ← represents.highest]
    split
    next fits =>
      obtain ⟨handle, ofKind, read, answered⟩ := Host.runtime_assign fits thread
      have checked : expectKind .assignModuleIndex handle .int = .ok handle := by
        simp [expectKind, Handle.isKind_iff.2 ofKind]
      have claimed : (map.definition definition).claim shared.world.upperIndex =
          (shared.world.upperIndex, { map.definition definition with
            rawIndex := shared.world.upperIndex.value }) := by
        simp [ModuleDefinition.claim, unassigned]
      rw [eval_bind_of_ok (eval_ask answered), checked, eval_bind_of_ok rfl, read]
      simp only [eval_claim, represents.definition, claimed]
      refine ⟨_, rfl, ⟨represents.tagged.objects, represents.tagged.threads⟩, represents.entry, ?_,
        represents.live, rfl⟩
      simp only [Shared.storeDefinition]
      rfl
    next wide =>
      rw [eval_bind_of_error (eval_ask (Host.runtime_exhausted wide thread))]
      exact ⟨shared, rfl, represents⟩

theorem Represents.place (represents : shared.Represents map) (thread : ThreadId)
    (module : ModuleHandle) (index : ModuleIndex) :
    (placeModule module index).Gives thread shared (map.place module index) := by
  -- The runtime has replaced the entry when it answers, so the previous module comes with the answer.
  unfold ModuleMap.place placeModule indexArgument Gives
  by_cases fits : index.Fits
  next =>
    obtain ⟨handle, carried, read⟩ := fits.toHandle?
    simp only [carried, fits, not_true_eq_false, if_false]
    rw [eval_bind_of_ok rfl]
    have live := represents.liveModule? module
    by_cases member : module ∈ map.live
    next =>
      rw [if_pos member] at live
      have answered := Host.runtime_add live read thread
      rw [eval_bind_of_ok (eval_ask answered), optionalModule_moduleAnswer, represents.entry]
      simp only [member, not_true_eq_false, if_false]
      exact ⟨_, rfl, represents.setEntry fun other => ModuleRegistry.find?_insert _ index other module⟩
    next =>
      rw [if_neg member] at live
      have answered := Host.runtime_add_of_none live read thread
      rw [eval_bind_of_error (eval_ask answered)]
      simp only [member, not_false_eq_true, if_true]
      exact ⟨shared, rfl, represents⟩
  next =>
    simp only [ModuleIndex.toHandle?_of_not_fits fits, fits, not_false_eq_true, if_true]
    exact ⟨shared, rfl, represents⟩

theorem Represents.add (represents : shared.Represents map) (thread : ThreadId)
    (module : ModuleHandle) (definition : DefinitionId) :
    (addModule module (some definition)).Gives thread shared (map.add module definition) := by
  unfold ModuleMap.add Gives
  rw [addModule_eq, eval_bind_of_ok (eval_look definition), represents.definition]
  split
  next => exact ⟨shared, rfl, represents⟩
  next =>
    obtain ⟨middle, initialised, between⟩ := represents.init thread definition
    generalize map.init definition = given at initialised between
    rcases given with ⟨error | index, assigned⟩
    next =>
      rw [eval_bind_of_error (eval_asApi_of_error initialised)]
      exact ⟨middle, rfl, between⟩
    next =>
      rw [eval_bind_of_ok (eval_asApi_of_ok initialised)]
      obtain ⟨after, placed, represents⟩ := between.place thread module index
      simp only
      generalize assigned.place module index = given at placed represents
      rcases given with ⟨error | previous?, last⟩
      next =>
        rw [eval_bind_of_error (eval_asApi_of_error placed)]
        exact ⟨after, rfl, represents⟩
      next =>
        rw [eval_bind_of_ok (eval_asApi_of_ok placed), eval_reportPlaced]
        by_cases same : previous? = some module
        next =>
          simp only [same, if_true]
          exact ⟨after, rfl, represents⟩
        next =>
          simp only [same, if_false]
          exact ⟨after, rfl, represents⟩

theorem Represents.remove (represents : shared.Represents map) (thread : ThreadId)
    (definition : DefinitionId) (indexed : (map.definition definition).hasSlots ∨
      ((map.definition definition).index?).isSome) :
    (removeModule definition).Gives thread shared (map.remove definition) := by
  unfold removeModule ModuleMap.remove Gives
  rw [eval_bind_of_ok (eval_look definition), represents.definition]
  cases slots : (map.definition definition).hasSlots with
  | true => exact ⟨shared, rfl, represents⟩
  | false =>
    obtain ⟨index, assigned⟩ := Option.isSome_iff_exists.1 (indexed.resolve_left (by simp [slots]))
    simp only [assigned, indexArgument, Bool.false_eq_true, if_false]
    by_cases fits : index.Fits
    next =>
      obtain ⟨handle, carried, read⟩ := fits.toHandle?
      have decoded := HostQuery.run_decode_remove [handle]
      simp only [read] at decoded
      have answered := Host.invoke_of_query decoded shared.world thread
      simp only [carried, fits, if_true]
      rw [eval_bind_of_ok rfl, eval_bind_of_ok (eval_asApi_of_ok (eval_ask answered)),
        optionalModule_moduleAnswer]
      have erased := represents.setEntry fun other => ModuleRegistry.find?_remove _ index other
      refine ⟨_, ?_, erased⟩
      cases (shared.world.noteIndex index).modules.find? index <;> rfl
    next =>
      simp only [ModuleIndex.toHandle?_of_not_fits fits, fits, if_false]
      exact ⟨shared, rfl, represents⟩

end Shared

end StateBridge
