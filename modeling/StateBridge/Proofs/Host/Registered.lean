import StateBridge.Proofs.Bridge.Upholding

set_option autoImplicit false

namespace StateBridge

def Event.made? : Event → EventAnswer → Option (ModuleHandle × String)
  | .direct _ (.newModule name), .host (.module module) => some (module, name)
  | _, _ => none

def modulesNamed : List Event → Process Host → List (ModuleHandle × String)
  | [], _ => []
  | event :: rest, process =>
    match event.play process with
    | .ok answer after => (event.made? answer).toList ++ modulesNamed rest after
    | .error _ _ => []

def HasRoom : List Event → Process Host → Prop
  | [], process => process.world.liveObjects ≤ HandleTable.capacity
  | event :: rest, process =>
    process.world.liveObjects ≤ HandleTable.capacity ∧
      match event.play process with
      | .ok _ after => HasRoom rest after
      | .error _ last => last.world.liveObjects ≤ HandleTable.capacity

instance decidableHasRoom :
    (events : List Event) → (process : Process Host) → Decidable (HasRoom events process)
  | [], _ => Nat.decLe _ _
  | event :: rest, process =>
    @instDecidableAnd _ _ (Nat.decLe _ _) <|
      match event.play process with
      | .ok _ after => decidableHasRoom rest after
      | .error _ _ => Nat.decLe _ _

theorem HasRoom.within {events : List Event} {process : Process Host}
    (room : HasRoom events process) : process.world.liveObjects ≤ HandleTable.capacity := by
  cases events with
  | nil => exact room
  | cons event rest => exact room.1

namespace Host

variable {host after : Host} {thread : ThreadId} {made : List (ModuleHandle × String)}

structure Houses (host : Host) (made : List (ModuleHandle × String)) : Prop where
  distinct : (made.map Prod.fst).Nodup
  named : ∀ module name, host.moduleName? module = some name ↔ (module, name) ∈ made
  registered : ∀ index module, host.registeredModule? index = some module →
    ∃ name, (module, name) ∈ made

theorem new_houses (explicitAttach : Bool) : (Host.new explicitAttach).Houses [] := by
  constructor
  next => exact List.nodup_nil
  next => simp [moduleName?_eq_some_iff, new]
  next =>
    intro index module found
    cases found

theorem Houses.keeps (houses : host.Houses made) (keeps : host.KeepsModules after) :
    after.Houses made := by
  constructor
  next => exact houses.distinct
  next =>
    intro module name
    rw [moduleName?_eq_some_iff, keeps.live, ← moduleName?_eq_some_iff, houses.named]
  next =>
    intro index module
    rw [registeredModule?, keeps.modules]
    exact houses.registered index module

theorem Houses.newModule (houses : host.Houses made) {module : ModuleHandle} {name : String}
    (modules : after.modules = host.modules) (unused : host.objects.get? module.handle = none)
    (stored : ∀ handle, after.objects.get? handle =
      if handle = module.handle then some (.module name) else host.objects.get? handle) :
    after.Houses (made ++ [(module, name)]) := by
  have fresh : ∀ other, (module, other) ∉ made := by
    intro other member
    rw [← houses.named, moduleName?_eq_some_iff, unused] at member
    cases member
  constructor
  next =>
    rw [List.map_append, List.nodup_append]
    refine ⟨houses.distinct, List.nodup_singleton _, ?_⟩
    intro known earlier other single same
    obtain ⟨⟨_, named⟩, member, rfl⟩ := List.mem_map.1 earlier
    obtain rfl := List.mem_singleton.1 single
    subst same
    exact fresh named member
  next =>
    intro other named
    rw [moduleName?_eq_some_iff, stored, List.mem_append, ← houses.named, moduleName?_eq_some_iff,
      List.mem_singleton, Prod.mk.injEq]
    split
    next same =>
      obtain rfl := TypedHandle.handle_injective same
      simp [unused, eq_comm]
    next differ =>
      have apart : other ≠ module := fun same => differ (congrArg _ same)
      simp [apart]
  next =>
    intro index other found
    rw [registeredModule?, modules] at found
    obtain ⟨named, member⟩ := houses.registered index other found
    exact ⟨named, List.mem_append_left _ member⟩

def Registers (host after : Host) : Prop :=
  after.objects = host.objects ∧ ∀ index module, after.registeredModule? index = some module →
    host.registeredModule? index = some module ∨ (host.moduleName? module).isSome

theorem Houses.registers (houses : host.Houses made) (registers : host.Registers after) :
    after.Houses made := by
  obtain ⟨objects, entries⟩ := registers
  constructor
  next => exact houses.distinct
  next =>
    intro module name
    rw [moduleName?_eq_some_iff, objects, ← moduleName?_eq_some_iff, houses.named]
  next =>
    intro index module found
    obtain before | live := entries index module found
    next => exact houses.registered index module before
    next =>
      obtain ⟨name, named⟩ := Option.isSome_iff_exists.1 live
      exact ⟨name, (houses.named module name).1 named⟩

theorem registers_answer {query : HostQuery} {answer : Except UpcallError Handle}
    (other : query.op ≠ .resolveCurrentThreadState ∧ query.op ≠ .threadStateDict)
    (answered : host.answer thread query = .ok (answer, after)) : host.Registers after := by
  have same (modules : after.modules = host.modules) (objects : after.objects = host.objects) :
      host.Registers after := by
    refine ⟨objects, ?_⟩
    intro index module found
    rw [registeredModule?, modules] at found
    exact .inl found
  cases query with
  | resolve => exact absurd rfl other.1
  | dictOf state => exact absurd rfl other.2
  | find index =>
    cases answered
    exact same rfl rfl
  | add handle index =>
    simp only [Host.answer] at answered
    split at answered
    next module live =>
      cases answered
      refine ⟨rfl, ?_⟩
      intro known found stored
      rw [registeredModule?, ModuleRegistry.find?_insert] at stored
      split at stored
      next =>
        cases stored
        exact .inr (liveModule?_eq_some_iff.1 live).2
      next => exact .inl stored
    next =>
      cases answered
      exact same rfl rfl
  | remove index =>
    cases answered
    refine ⟨rfl, ?_⟩
    intro known found stored
    change (host.modules.remove index).2.find? known = some found at stored
    rw [ModuleRegistry.find?_remove] at stored
    split at stored
    next => cases stored
    next => exact .inl stored
  | assign =>
    simp only [Host.answer] at answered
    split at answered
    next =>
      obtain ⟨handle, -, rest⟩ := ok_of_bind answered
      cases rest
      exact same rfl rfl
    next =>
      cases answered
      exact same rfl rfl

theorem registers_invoke {op : UpcallOp} {args : List Handle} {answer : Except UpcallError Handle}
    (other : op ≠ .resolveCurrentThreadState ∧ op ≠ .threadStateDict)
    (invoked : host.invoke thread op args = .ok (answer, after)) : host.Registers after := by
  rw [invoke_eq] at invoked
  cases read : HostQuery.read op args with
  | error error =>
    rw [read] at invoked
    cases invoked
    exact ⟨rfl, fun index module => .inl⟩
  | ok query =>
    rw [read] at invoked
    rw [← HostQuery.op_of_read read] at other
    exact registers_answer other invoked

theorem Tagged.houses_invoke (tagged : host.Tagged) (thread : ThreadId) (op : UpcallOp)
    (args : List Handle) :
    ∃ answer after, host.invoke thread op args = .ok (answer, after) ∧ after.Tagged ∧
      host.liveObjects ≤ after.liveObjects ∧
      (after.liveObjects ≤ HandleTable.capacity → host.Houses made → after.Houses made) := by
  by_cases spares : op = .resolveCurrentThreadState ∨ op = .threadStateDict
  next =>
    obtain ⟨answer, after, invoked, kept, grows, keeps⟩ := tagged.invoke thread spares args
    exact ⟨answer, after, invoked, kept, grows, fun room houses => houses.keeps (keeps room)⟩
  next =>
    obtain ⟨answer, after, invoked, kept, -⟩ := tagged.serves thread op args
    have registers := registers_invoke (not_or.1 spares) invoked
    have same : after.liveObjects = host.liveObjects := congrArg HandleTable.size registers.1
    exact ⟨answer, after, invoked, kept, same.ge, fun room houses => houses.registers registers⟩

def Managed (made : List (ModuleHandle × String)) (host : Host) : Prop :=
  host.Tagged ∧ (host.liveObjects ≤ HandleTable.capacity → host.Houses made)

theorem Managed.and_nothing (managed : host.Managed made)
    {added? : Option (ModuleHandle × String)} (nothing : added? = none) :
    host.Managed (made ++ added?.toList) := by
  rwa [nothing, Option.toList_none, List.append_nil]

theorem gate_upholds_managed (made : List (ModuleHandle × String)) :
    runtime.gate.Upholds (Managed made) := by
  intro id thread op args process managed
  obtain ⟨tagged, housed⟩ := managed
  obtain ⟨answer, after, invoked, kept, grows, houses⟩ := tagged.houses_invoke thread op args
  rw [Runtime.gate_of_ok invoked id]
  exact ⟨kept, fun room => houses room (housed (grows.trans room))⟩

theorem Tagged.houses_call (tagged : host.Tagged) (houses : host.Houses made) (thread : ThreadId)
    (call : HostCall) :
    ∃ answer after, host.call thread call = .ok (answer, after) ∧
      after.Managed (made ++ ((Event.direct thread call).made? (.host answer)).toList) := by
  have spared {call : HostCall} (spares : call.SparesRegistry)
      (none_made : ∀ answer, (Event.direct thread call).made? (.host answer) = none) :
      ∃ answer after, host.call thread call = .ok (answer, after) ∧
        after.Managed (made ++ ((Event.direct thread call).made? (.host answer)).toList) := by
    obtain ⟨answer, after, called, kept, keeps⟩ := tagged.call thread spares
    have managed : after.Managed made := ⟨kept, fun room => houses.keeps (keeps room)⟩
    exact ⟨answer, after, called, managed.and_nothing (none_made answer)⟩
  cases call with
  | newModule name =>
    obtain ⟨module, after, created, modules, -, kept, stored⟩ := tagged.newModule name
    refine ⟨.module module, after, by simp only [Host.call, created]; rfl, kept, ?_⟩
    intro room
    obtain ⟨unused, lookup⟩ := stored room
    exact houses.newModule modules unused lookup
  | invoke op args =>
    obtain ⟨answer, after, invoked, kept, -, keeps⟩ := tagged.houses_invoke thread op args
    have managed : after.Managed made := ⟨kept, fun room => keeps room houses⟩
    exact ⟨.upcall answer, after, by simp only [Host.call, invoked]; rfl, managed.and_nothing rfl⟩
  | attach | switch | detach | moduleName | dictSet | dictGet | dictSize | registeredModule =>
    exact spared trivial fun answer => rfl

end Host

theorem Event.houses (event : Event) {process : Process Host} {made : List (ModuleHandle × String)}
    (tagged : process.world.Tagged) (houses : process.world.Houses made) :
    (∃ answer after, event.play process = .ok answer after ∧
      after.world.Managed (made ++ (event.made? answer).toList)) ∨
    ∃ error last, event.play process = .error (.fatal error) last ∧ last.world.Managed made := by
  have managed : process.world.Managed made := ⟨tagged, fun _ => houses⟩
  have trusted := Host.gate_upholds_managed made
  cases event with
  | modules bridge thread request =>
    obtain ⟨answer, after, played, kept⟩ | halted :=
      ((BridgeRequest.modules request).play_upholds trusted bridge thread managed).ends
    next => exact .inl ⟨answer, after, played, kept.and_nothing rfl⟩
    next => exact .inr halted
  | threads bridge thread request =>
    obtain ⟨answer, after, played, kept⟩ | halted :=
      ((BridgeRequest.threads request).play_upholds trusted bridge thread managed).ends
    next => exact .inl ⟨answer, after, played, kept.and_nothing rfl⟩
    next => exact .inr halted
  | direct thread call =>
    obtain ⟨answer, after, called, kept⟩ := tagged.houses_call houses thread call
    have stepped := Shared.onHost_of_ok (fun host => host.call thread call) called
    exact .inl ⟨.host answer, _, Process.map_of_ok stepped EventAnswer.host, kept⟩
  | exit thread =>
    obtain ⟨had, after, dropped, kept, keeps⟩ := tagged.dropThreadState thread
    have stepped := Shared.onHost_of_ok (fun host => host.dropThreadState thread) dropped
    have managed : after.Managed made := ⟨kept, fun _ => houses.keeps keeps⟩
    exact .inl ⟨.exited had, _, Process.map_of_ok stepped EventAnswer.exited, managed.and_nothing rfl⟩

theorem playAll_houses {events : List Event} {process : Process Host}
    {made : List (ModuleHandle × String)} (tagged : process.world.Tagged)
    (houses : process.world.Houses made) (room : HasRoom events process) :
    ∃ last, Run.Ends (playAll events process) last ∧
      last.world.Houses (made ++ modulesNamed events process) := by
  induction events generalizing process made with
  | nil =>
    refine ⟨process, .inl ⟨[], rfl⟩, ?_⟩
    rwa [modulesNamed, List.append_nil]
  | cons event rest ih =>
    obtain ⟨-, remains⟩ := room
    rw [modulesNamed]
    obtain ⟨answer, middle, played, kept, housed⟩ | ⟨error, last, played, -, housed⟩ :=
      event.houses tagged houses
    next =>
      rw [played] at remains ⊢
      obtain ⟨last, ends, final⟩ := ih kept (housed remains.within) remains
      rw [List.append_assoc] at final
      exact ⟨last, playAll_ends played ends, final⟩
    next =>
      rw [played] at remains ⊢
      rw [List.append_nil]
      exact ⟨last, .inr ⟨error, playAll_of_halt played rest⟩, housed remains⟩

-- Each state that a host comes to is the last one of some run, so this holds at every moment.
theorem registered_modules_never_dangle (explicitAttach : Bool) (process : Process Host)
    (events : List Event) (room : HasRoom events { process with world := .new explicitAttach }) :
    let start : Process Host := { process with world := .new explicitAttach }
    ∃ last : Process Host,
      ((∃ answers, playAll events start = .ok answers last) ∨
        ∃ error, playAll events start = .error (.fatal error) last) ∧
      ((modulesNamed events start).map Prod.fst).Nodup ∧
      (∀ module name, (module, name) ∈ modulesNamed events start →
        last.world.moduleName? module = some name) ∧
      ∀ index module, last.world.registeredModule? index = some module →
        ∃ name, (module, name) ∈ modulesNamed events start ∧
          last.world.moduleName? module = some name := by
  intro start
  have tagged : start.world.Tagged := Host.new_tagged explicitAttach
  obtain ⟨last, ends, houses⟩ := playAll_houses tagged (Host.new_houses explicitAttach) room
  rw [List.nil_append] at houses
  refine ⟨last, ends, houses.distinct, fun module name => (houses.named module name).2, ?_⟩
  intro index module found
  obtain ⟨name, member⟩ := houses.registered index module found
  exact ⟨name, member, (houses.named module name).2 member⟩

-- The module takes the slot of a thread state that is gone. It is added, and another thread finds it.
theorem registered_modules_never_dangle_reused_slot :
    let start : Process Host := .start (.new false)
    let module : ModuleHandle := ⟨⟨0x0400030000000000⟩, by decide⟩
    let events : List Event := [.direct ⟨0⟩ .attach, .exit ⟨0⟩, .direct ⟨1⟩ (.newModule "spam"),
      .direct ⟨1⟩ (.invoke .addModuleByIndex [module.handle, ⟨0x0100000000000007⟩]),
      .modules ⟨0⟩ ⟨2⟩ (.findByIndex ⟨7, by decide⟩), .threads ⟨0⟩ ⟨2⟩ .currentDict, .exit ⟨2⟩]
    HasRoom events start ∧ modulesNamed events start = [(module, "spam")] ∧
      ∃ last : Process Host,
        ((∃ answers, playAll events start = .ok answers last) ∨
          ∃ error, playAll events start = .error (.fatal error) last) ∧
        last.world.moduleName? module = some "spam" := by
  intro start module events
  have room : HasRoom events start := by decide +kernel
  have made : modulesNamed events start = [(module, "spam")] := by decide +kernel
  obtain ⟨last, ends, -, named, -⟩ := registered_modules_never_dangle false start events room
  refine ⟨room, made, last, ends, named module "spam" ?_⟩
  change (module, "spam") ∈ modulesNamed events start
  rw [made]
  exact List.mem_singleton_self _

end StateBridge
