import StateBridge.Proofs.Host.Query
import StateBridge.Proofs.Table.Invariant

set_option autoImplicit false

namespace StateBridge

namespace ManagedValue

def kind : ManagedValue → HandleKind
  | .threadState _ => .threadState
  | .dict _ => .dict
  | .module _ => .module

theorem kind_ne_int (value : ManagedValue) : value.kind ≠ .int := by
  cases value <;> simp [kind]

def Refers (value : ManagedValue) : Prop :=
  ∀ dict, value = .threadState (some dict) → dict.kind? = some .dict

theorem refers_fresh : (threadState none).Refers := by simp [Refers]

theorem refers_dict (entries : FiniteMap String Handle) : (dict entries).Refers := by simp [Refers]

theorem refers_module (name : String) : (module name).Refers := by simp [Refers]

end ManagedValue

namespace HandleTable

variable {objects after : HandleTable ManagedValue} {handle : Handle} {value old : ManagedValue}

-- A slot that no handle can name is of the kind of its object as well, so this needs no limit.
structure Tagged (objects : HandleTable ManagedValue) : Prop where
  sound : objects.Sound
  slots : ∀ slot ∈ objects.slots, ∀ value, slot.value? = some value →
    slot.kind = value.kind ∧ value.Refers

def KeepsModules (before after : HandleTable ManagedValue) : Prop :=
  ∀ handle name, after.get? handle = some (.module name) ↔ before.get? handle = some (.module name)

theorem Tagged.get? (tagged : objects.Tagged) (found : objects.get? handle = some value) :
    handle.kind? = some value.kind ∧ value.Refers := by
  obtain ⟨key, decoded, holds⟩ := get?_eq_some_iff.1 found
  obtain ⟨rfl, -, -⟩ := TableKey.handle_of_decode? decoded
  obtain ⟨same, refers⟩ := tagged.slots _ (Array.mem_of_getElem? holds) value rfl
  exact ⟨key.kind?_handle.trans (congrArg some same), refers⟩

theorem empty_tagged : (empty : HandleTable ManagedValue).Tagged :=
  ⟨empty_sound, by simp [empty]⟩

theorem Tagged.insert (tagged : objects.Tagged) (refers : value.Refers)
    (inserted : objects.Inserted after value.kind value handle) : after.Tagged := by
  refine ⟨inserted.sound, ?_⟩
  intro slot member held filled
  rcases inserted.slots slot member with before | ⟨same, ofKind⟩
  next => exact tagged.slots slot before held filled
  next =>
    rw [same] at filled
    cases filled
    exact ⟨ofKind, refers⟩

theorem Tagged.set (tagged : objects.Tagged) (refers : value.Refers)
    (present : objects.get? handle = some old) (same : old.kind = value.kind) :
    (objects.set handle value).Tagged := by
  refine ⟨tagged.sound.set handle value, ?_⟩
  intro slot member held filled
  rcases set_slots slot member with before | ⟨stored, ofKind⟩
  next => exact tagged.slots slot before held filled
  next =>
    rw [stored] at filled
    cases filled
    rw [(tagged.get? present).1, same] at ofKind
    exact ⟨(Option.some.inj ofKind).symm, refers⟩

theorem Tagged.remove (tagged : objects.Tagged) {kind : HandleKind}
    (ofKind : handle.kind? = some kind) (other : kind ≠ .module) :
    ∃ after, objects.remove handle = .ok (objects.get? handle, after) ∧ after.Tagged ∧
      objects.KeepsModules after := by
  obtain ⟨after, removed, sound, get?, -⟩ := tagged.sound.remove handle
  refine ⟨after, removed, ⟨sound, ?_⟩, ?_⟩
  next =>
    intro slot member held filled
    rcases remove_slots removed slot member with before | empty
    next => exact tagged.slots slot before held filled
    next =>
      rw [empty] at filled
      cases filled
  next =>
    intro asked name
    rw [get?]
    split
    next same =>
      have missing : objects.get? asked ≠ some (.module name) := by
        intro found
        have tag := (tagged.get? found).1
        rw [same, ofKind] at tag
        exact other (Option.some.inj tag)
      simp [missing]
    next => rfl

theorem Inserted.keepsModules (inserted : objects.Inserted after value.kind value handle)
    (other : value.kind ≠ .module) (room : objects.size < capacity) :
    objects.KeepsModules after := by
  intro asked name
  rw [inserted.get? room]
  split
  next same =>
    rw [same, inserted.unused room]
    cases value <;> simp [ManagedValue.kind] at other ⊢
  next => rfl

theorem keepsModules_set (present : objects.get? handle = some old) (same : old.kind = value.kind)
    (other : value.kind ≠ .module) : objects.KeepsModules (objects.set handle value) := by
  intro asked name
  rw [get?_set]
  split
  next here =>
    rw [here.1, present]
    cases old <;> cases value <;> simp [ManagedValue.kind] at same other ⊢
  next => rfl

end HandleTable

namespace Host

variable {host after : Host}

structure Tagged (host : Host) : Prop where
  objects : host.objects.Tagged
  threads : ∀ thread handle, host.threads.find? thread = some handle →
    handle.kind? = some .threadState

structure KeepsModules (before after : Host) : Prop where
  modules : after.modules = before.modules
  highestIndex : after.highestIndex = before.highestIndex
  live : before.objects.KeepsModules after.objects

theorem KeepsModules.refl (host : Host) : host.KeepsModules host :=
  ⟨rfl, rfl, fun _ _ => Iff.rfl⟩

theorem KeepsModules.trans {first second third : Host} (one : first.KeepsModules second)
    (two : second.KeepsModules third) : first.KeepsModules third :=
  ⟨two.modules.trans one.modules, two.highestIndex.trans one.highestIndex,
    fun handle name => (two.live handle name).trans (one.live handle name)⟩

theorem moduleName?_eq_some_iff {module : ModuleHandle} {name : String} :
    host.moduleName? module = some name ↔
      host.objects.get? module.handle = some (.module name) := by
  unfold moduleName?
  cases host.objects.get? module.handle with
  | none => simp
  | some value => cases value <;> simp

theorem moduleName?_isSome_iff {module : ModuleHandle} :
    (host.moduleName? module).isSome ↔
      ∃ name, host.objects.get? module.handle = some (.module name) := by
  simp only [Option.isSome_iff_exists, moduleName?_eq_some_iff]

theorem liveModule?_eq_some_iff {handle : Handle} {module : ModuleHandle} :
    host.liveModule? handle = some module ↔
      module.handle = handle ∧ (host.moduleName? module).isSome := by
  rw [moduleName?_isSome_iff]
  unfold liveModule?
  constructor
  next =>
    intro live
    split at live
    next name found =>
      obtain rfl := TypedHandle.ofHandle?_eq_some_iff.1 live
      exact ⟨rfl, name, found⟩
    next => cases live
  next =>
    rintro ⟨rfl, name, found⟩
    simp only [found]
    exact TypedHandle.ofHandle?_handle module

theorem new_tagged (explicitAttach : Bool) : (Host.new explicitAttach).Tagged :=
  ⟨HandleTable.empty_tagged, by simp [new]⟩

def Spares {α : Type} (host : Host) (outcome : Except Fault (α × Host)) : Prop :=
  ∃ result after, outcome = .ok (result, after) ∧ after.Tagged ∧
    (after.liveObjects ≤ HandleTable.capacity → host.KeepsModules after)

def Grows {α : Type} (host : Host) (outcome : Except Fault (α × Host)) : Prop :=
  ∃ result after, outcome = .ok (result, after) ∧ after.Tagged ∧
    host.liveObjects ≤ after.liveObjects ∧
    (after.liveObjects ≤ HandleTable.capacity → host.KeepsModules after)

theorem Grows.spares {α : Type} {outcome : Except Fault (α × Host)} (grows : host.Grows outcome) :
    host.Spares outcome := by
  obtain ⟨result, after, ran, tagged, -, keeps⟩ := grows
  exact ⟨result, after, ran, tagged, keeps⟩

theorem Tagged.unchanged {α : Type} (tagged : host.Tagged) (result : α) :
    host.Grows (.ok (result, host)) :=
  ⟨result, host, rfl, tagged, le_refl _, fun _ => .refl host⟩

theorem Spares.map {α β : Type} {outcome : Except Fault (α × Host)} (spares : host.Spares outcome)
    (present : α → β) :
    host.Spares (do let (result, after) ← outcome; return (present result, after)) := by
  obtain ⟨result, after, rfl, kept⟩ := spares
  exact ⟨present result, after, rfl, kept⟩

theorem Tagged.newThreadState (tagged : host.Tagged) (thread : ThreadId) :
    ∃ state after, host.newThreadState thread = .ok (state, after) ∧
      state.kind? = some .threadState ∧ after.Tagged ∧ after.liveObjects = host.liveObjects + 1 ∧
      (after.liveObjects ≤ HandleTable.capacity → host.KeepsModules after) := by
  let fresh : ManagedValue := .threadState none
  obtain ⟨state, objects, stored, inserted⟩ :=
    tagged.objects.sound.inserted fresh fresh.kind_ne_int
  change host.objects.insert .threadState (.threadState none) = _ at stored
  refine ⟨state, { host with objects, threads := host.threads.insert thread state },
    by simp [Host.newThreadState, stored], inserted.ofKind,
    ⟨tagged.objects.insert ManagedValue.refers_fresh inserted, ?_⟩, inserted.size, ?_⟩
  next =>
    intro other handle found
    rw [FiniteMap.find?_insert] at found
    split at found
    next =>
      cases found
      exact inserted.ofKind
    next => exact tagged.threads other handle found
  next =>
    intro within
    have size := inserted.size
    simp only [liveObjects] at within
    exact ⟨rfl, rfl, inserted.keepsModules (by simp [fresh, ManagedValue.kind]) (by omega)⟩

theorem Tagged.dropThreadState (tagged : host.Tagged) (thread : ThreadId) :
    ∃ had after, host.dropThreadState thread = .ok (had, after) ∧ after.Tagged ∧
      host.KeepsModules after := by
  cases owned : host.threads.find? thread with
  | none => exact ⟨false, host, by simp [Host.dropThreadState, owned]; rfl, tagged, .refl host⟩
  | some state =>
    obtain ⟨objects, removed, kept, modules⟩ :=
      tagged.objects.remove (tagged.threads thread state owned) (by decide)
    have threads : ∀ other handle, (host.threads.erase thread).find? other = some handle →
        handle.kind? = some .threadState := by
      intro other handle found
      rw [FiniteMap.find?_erase] at found
      split at found
      next => cases found
      next => exact tagged.threads other handle found
    unfold Host.dropThreadState
    simp only [owned, removed]
    cases found : host.objects.get? state with
    | none => exact ⟨true, _, rfl, ⟨kept, threads⟩, rfl, rfl, modules⟩
    | some value =>
      rcases value with (_ | dict) | entries | name
      next => exact ⟨true, _, rfl, ⟨kept, threads⟩, rfl, rfl, modules⟩
      next =>
        have ofKind := (tagged.objects.get? found).2 dict rfl
        obtain ⟨rest, gone, last, same⟩ := kept.remove ofKind (by decide)
        refine ⟨true, { host with objects := rest, threads := host.threads.erase thread }, ?_,
          ⟨last, threads⟩, rfl, rfl,
          fun handle name => (same handle name).trans (modules handle name)⟩
        simp only [bind, Except.bind, gone]
        rfl
      next => exact ⟨true, _, rfl, ⟨kept, threads⟩, rfl, rfl, modules⟩
      next => exact ⟨true, _, rfl, ⟨kept, threads⟩, rfl, rfl, modules⟩

theorem typed_threadState {handle : Handle} (ofKind : handle.kind? = some .threadState) :
    typed (ThreadStateHandle.ofHandle? handle) = .ok ⟨handle, ofKind⟩ := by
  simp [typed, TypedHandle.ofHandle?, ofKind]

theorem Tagged.attach (tagged : host.Tagged) (thread : ThreadId) :
    host.Spares (host.attach thread) := by
  unfold Host.attach
  cases owned : host.threads.find? thread with
  | some state =>
    simp only [typed_threadState (tagged.threads thread state owned)]
    exact (tagged.unchanged _).spares
  | none =>
    obtain ⟨state, after, made, ofKind, kept, -, keeps⟩ := tagged.newThreadState thread
    simp only [made, bind, Except.bind, typed_threadState ofKind]
    exact ⟨_, after, rfl, kept, keeps⟩

theorem Tagged.switch (tagged : host.Tagged) (thread : ThreadId) :
    host.Spares (host.switch thread) := by
  obtain ⟨had, middle, dropped, between, first⟩ := tagged.dropThreadState thread
  obtain ⟨state, after, made, ofKind, kept, -, second⟩ := between.newThreadState thread
  unfold Host.switch
  simp only [dropped, made, bind, Except.bind, typed_threadState ofKind]
  exact ⟨_, after, rfl, kept, fun within => first.trans (second within)⟩

theorem Tagged.detach (tagged : host.Tagged) (thread : ThreadId) :
    host.Spares (host.detach thread) := by
  obtain ⟨had, after, dropped, kept, keeps⟩ := tagged.dropThreadState thread
  exact ⟨had, after, dropped, kept, fun _ => keeps⟩

theorem Tagged.dictSet (tagged : host.Tagged) (dict : DictHandle) (key : String) (value : Handle) :
    (host.dictSet dict key value).2.Tagged ∧ host.KeepsModules (host.dictSet dict key value).2 := by
  unfold Host.dictSet Host.dictEntries?
  cases found : host.objects.get? dict.handle with
  | none => exact ⟨tagged, .refl host⟩
  | some held =>
    rcases held with dict? | entries | name
    next => exact ⟨tagged, .refl host⟩
    next =>
      exact ⟨⟨tagged.objects.set (ManagedValue.refers_dict _) found rfl, tagged.threads⟩, rfl, rfl,
        HandleTable.keepsModules_set found rfl (by simp [ManagedValue.kind])⟩
    next => exact ⟨tagged, .refl host⟩

theorem Tagged.resolve (tagged : host.Tagged) (thread : ThreadId) :
    host.Grows (host.answer thread .resolve) := by
  unfold Host.answer
  cases owned : host.threads.find? thread with
  | some state => exact tagged.unchanged _
  | none =>
    simp only
    split
    next => exact tagged.unchanged _
    next =>
      obtain ⟨state, after, made, ofKind, kept, size, keeps⟩ := tagged.newThreadState thread
      simp only [made, bind, Except.bind]
      exact ⟨_, after, rfl, kept, by omega, keeps⟩

theorem Tagged.dictOf (tagged : host.Tagged) (thread : ThreadId) (state : Handle) :
    host.Grows (host.answer thread (.dictOf state)) := by
  have refused := tagged.unchanged (show Except UpcallError Handle from
    .error (.invalidArgument .threadStateDict .notLiveThreadState))
  unfold Host.answer
  cases found : host.objects.get? state with
  | none =>
    simp only [found]
    exact refused
  | some held =>
    rcases held with (_ | dict) | entries | name
    next =>
      let fresh : ManagedValue := .dict .empty
      obtain ⟨dict, objects, stored, inserted⟩ :=
        tagged.objects.sound.inserted fresh fresh.kind_ne_int
      change host.objects.insert .dict (.dict .empty) = _ at stored
      have present := inserted.keeps state _ found
      have linked : (ManagedValue.threadState (some dict)).Refers := by
        intro other same
        cases same
        exact inserted.ofKind
      have size : (objects.set state (.threadState (some dict))).size = host.objects.size + 1 := by
        rw [HandleTable.size, HandleTable.live_set]
        exact inserted.size
      simp only [found, stored, bind, Except.bind]
      refine ⟨_, { host with objects := objects.set state (.threadState (some dict)) }, rfl,
        ⟨(tagged.objects.insert (ManagedValue.refers_dict _) inserted).set linked present rfl,
          tagged.threads⟩, by simp only [liveObjects]; omega, ?_⟩
      intro within
      simp only [liveObjects] at within
      have one := inserted.keepsModules (by simp [fresh, ManagedValue.kind]) (by omega)
      have two : objects.KeepsModules (objects.set state (.threadState (some dict))) :=
        HandleTable.keepsModules_set present rfl (by simp [ManagedValue.kind])
      exact ⟨rfl, rfl, fun handle name => (two handle name).trans (one handle name)⟩
    next =>
      simp only [found]
      exact tagged.unchanged _
    next =>
      simp only [found]
      exact refused
    next =>
      simp only [found]
      exact refused

theorem Tagged.newModule (tagged : host.Tagged) (name : String) :
    ∃ module after, host.newModule name = .ok (module, after) ∧ after.modules = host.modules ∧
      after.highestIndex = host.highestIndex ∧ after.Tagged ∧
      (after.liveObjects ≤ HandleTable.capacity → host.objects.get? module.handle = none ∧
        ∀ handle, after.objects.get? handle =
          if handle = module.handle then some (.module name) else host.objects.get? handle) := by
  let fresh : ManagedValue := .module name
  obtain ⟨module, objects, stored, inserted⟩ :=
    tagged.objects.sound.inserted fresh fresh.kind_ne_int
  change host.objects.insert .module (.module name) = _ at stored
  have ofKind : module.kind? = some .module := inserted.ofKind
  have typed : typed (ModuleHandle.ofHandle? module) = .ok ⟨module, ofKind⟩ := by
    simp [Host.typed, TypedHandle.ofHandle?, ofKind]
  refine ⟨⟨module, ofKind⟩, { host with objects }, ?_, rfl, rfl,
    ⟨tagged.objects.insert (ManagedValue.refers_module name) inserted, tagged.threads⟩, ?_⟩
  next =>
    unfold Host.newModule
    simp only [stored, bind, Except.bind, typed]
    rfl
  next =>
    intro within
    have size := inserted.size
    simp only [liveObjects] at within
    exact ⟨inserted.unused (by omega), inserted.get? (by omega)⟩

theorem Tagged.invoke (tagged : host.Tagged) (thread : ThreadId) {op : UpcallOp}
    (spares : op = .resolveCurrentThreadState ∨ op = .threadStateDict) (args : List Handle) :
    host.Grows (host.invoke thread op args) := by
  rcases spares with rfl | rfl
  next =>
    have decoded := HostQuery.run_decode_resolve args
    split at decoded
    next =>
      rw [invoke_of_query decoded]
      exact tagged.resolve thread
    next =>
      rw [invoke_of_error decoded]
      exact tagged.unchanged _
  next =>
    have decoded := HostQuery.run_decode_dictOf args
    split at decoded
    next state =>
      rw [invoke_of_query decoded]
      exact tagged.dictOf thread state
    next =>
      rw [invoke_of_error decoded]
      exact tagged.unchanged _

end Host

def HostCall.SparesRegistry : HostCall → Prop
  | .newModule _ => False
  | .invoke op _ => op = .resolveCurrentThreadState ∨ op = .threadStateDict
  | _ => True

theorem Host.Tagged.call {host : Host} (tagged : host.Tagged) (thread : ThreadId) {call : HostCall}
    (spares : call.SparesRegistry) : host.Spares (host.call thread call) := by
  cases call with
  | attach => exact (tagged.attach thread).map HostAnswer.threadState
  | switch => exact (tagged.switch thread).map HostAnswer.threadState
  | detach => exact (tagged.detach thread).map HostAnswer.flag
  | newModule => cases spares
  | dictSet dict key value =>
    obtain ⟨kept, keeps⟩ := tagged.dictSet dict key value
    exact ⟨_, _, rfl, kept, fun _ => keeps⟩
  | invoke op args => exact (tagged.invoke thread spares args).spares.map HostAnswer.upcall
  | moduleName | dictGet | dictSize | registeredModule => exact (tagged.unchanged _).spares

end StateBridge
