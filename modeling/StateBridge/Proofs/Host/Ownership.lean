import StateBridge.Proofs.Handle.Inline
import StateBridge.Proofs.Host.Storage
import StateBridge.Proofs.Host.Tags
import StateBridge.Proofs.Table.Contents

set_option autoImplicit false

namespace StateBridge

def OwnedState.dictHandle? (owned : OwnedState) : Option Handle :=
  owned.dict?.map fun dict => dict.1.handle

def OwnedState.lastFreed (owned : OwnedState) : Handle :=
  owned.dictHandle?.getD owned.state.handle

theorem OwnedState.mem_objects_iff {owned : OwnedState} {handle : Handle} {value : ManagedValue} :
    (handle, value) ∈ owned.objects ↔
      (handle = owned.state.handle ∧ value = .threadState owned.dictHandle?) ∨
        ∃ dict entries, owned.dict? = some (dict, entries) ∧ handle = dict.handle ∧
          value = .dict entries := by
  unfold objects dictHandle?
  cases owned.dict? with
  | none => simp
  | some read => simp [Prod.ext_iff, and_assoc]

theorem OwnedState.mem_handles_iff {owned : OwnedState} {handle : Handle} :
    handle ∈ owned.objects.map Prod.fst ↔
      handle = owned.state.handle ∨ owned.dictHandle? = some handle := by
  unfold objects dictHandle?
  cases owned.dict? with
  | none => simp
  | some read => simp [eq_comm]

theorem OwnedState.holds_dict (owned : OwnedState) {dict : DictHandle}
    {entries : FiniteMap String Handle} (read : owned.dict? = some (dict, entries)) :
    dict.handle ∈ owned.objects.map Prod.fst :=
  mem_handles_iff.2 (.inr (by simp only [dictHandle?, read, Option.map_some]))

namespace Storage

variable {storage : Storage} {thread : ThreadId} {owned : OwnedState} {handle : Handle}

theorem find?_put (storage : Storage) (caller : ThreadId) (owned : OwnedState) (thread : ThreadId) :
    (storage.put caller owned).owned.find? thread =
      if thread = caller then some owned else storage.owned.find? thread :=
  FiniteMap.find?_insert storage.owned caller thread owned

theorem find?_release (storage : Storage) (caller thread : ThreadId) :
    (storage.release caller).owned.find? thread =
      if thread = caller then none else storage.owned.find? thread :=
  FiniteMap.find?_erase storage.owned caller thread

theorem contains_put_iff {caller : ThreadId} : (storage.put caller owned).owned.contains thread = true ↔
    thread = caller ∨ storage.owned.contains thread = true := by
  rw [FiniteMap.contains, find?_put]
  split
  next same => simp [same]
  next differ => simp [differ, FiniteMap.contains]

theorem contains_release_iff {caller : ThreadId} :
    (storage.release caller).owned.contains thread = true ↔
      thread ≠ caller ∧ storage.owned.contains thread = true := by
  rw [FiniteMap.contains, find?_release]
  split
  next same => simp [same]
  next differ => simp [differ, FiniteMap.contains]

theorem contains_of_find? (mine : storage.owned.find? thread = some owned) :
    storage.owned.contains thread = true := by
  rw [FiniteMap.contains, mine]
  rfl

theorem objects_put (storage : Storage) (thread : ThreadId) (owned : OwnedState) :
    (storage.put thread owned).objects = owned.objects ++ (storage.release thread).objects := by
  simp [put, release, objects, FiniteMap.insert]

theorem objects_release_of_none (missing : storage.owned.find? thread = none) :
    (storage.release thread).objects = storage.objects := by
  simp only [objects, release, FiniteMap.entries_erase_of_find?_none missing]

theorem objects_perm (mine : storage.owned.find? thread = some owned) :
    storage.objects.Perm (owned.objects ++ (storage.release thread).objects) := by
  have front := (FiniteMap.entries_perm_of_find?_some mine).flatMap_right
    fun entry => entry.2.objects
  simp only [List.flatMap_cons] at front
  simpa only [objects, release, List.append_assoc] using front.append_right _

theorem objects_addModule {module : ModuleHandle} (unused : storage.Unused module.handle)
    (name : String) : storage.names.find? module = none ∧
      (storage.addModule module name).objects.Perm ((module.handle, .module name) :: storage.objects) := by
  have missing : storage.names.find? module = none := by
    rw [Option.eq_none_iff_forall_ne_some]
    intro held found
    apply unused
    rw [← FiniteMap.mem_entries_iff] at found
    simp only [objects, List.map_append, List.mem_append, List.map_map, List.mem_map]
    exact .inr ⟨(module, held), found, rfl⟩
  refine ⟨missing, ?_⟩
  simp only [objects, addModule, FiniteMap.entries_insert_of_find?_none missing, List.map_cons]
  exact List.perm_middle

theorem mem_objects_iff {value : ManagedValue} : (handle, value) ∈ storage.objects ↔
    (∃ thread owned, storage.owned.find? thread = some owned ∧ (handle, value) ∈ owned.objects) ∨
      ∃ module name, storage.names.find? module = some name ∧ handle = module.handle ∧
        value = .module name := by
  simp only [objects, List.mem_append, List.mem_flatMap, List.mem_map, Prod.exists, Prod.mk.injEq,
    FiniteMap.mem_entries_iff]
  grind

theorem state_mem_objects_iff {dict? : Option Handle} :
    (handle, .threadState dict?) ∈ storage.objects ↔
      ∃ thread owned, storage.owned.find? thread = some owned ∧ owned.state.handle = handle ∧
        owned.dictHandle? = dict? := by
  simp only [mem_objects_iff, OwnedState.mem_objects_iff]
  grind

theorem dict_mem_objects_iff {entries : FiniteMap String Handle} :
    (handle, .dict entries) ∈ storage.objects ↔
      ∃ thread owned dict, storage.owned.find? thread = some owned ∧
        owned.dict? = some (dict, entries) ∧ dict.handle = handle := by
  simp only [mem_objects_iff, OwnedState.mem_objects_iff]
  grind

theorem module_mem_objects_iff {name : String} : (handle, .module name) ∈ storage.objects ↔
    ∃ module, storage.names.find? module = some name ∧ module.handle = handle := by
  simp only [mem_objects_iff, OwnedState.mem_objects_iff]
  grind

theorem mem_objects_of_owned (mine : storage.owned.find? thread = some owned)
    (held : handle ∈ owned.objects.map Prod.fst) : handle ∈ storage.objects.map Prod.fst := by
  obtain ⟨entry, member, rfl⟩ := List.mem_map.1 held
  exact List.mem_map_of_mem (mem_objects_iff.2 (.inl ⟨thread, owned, mine, member⟩))

variable {first second : ThreadId} {one two : OwnedState}

theorem not_mem_release (distinct : (storage.objects.map Prod.fst).Nodup)
    (mine : storage.owned.find? thread = some owned) (held : handle ∈ owned.objects.map Prod.fst) :
    handle ∉ (storage.release thread).objects.map Prod.fst := by
  have apart := ((objects_perm mine).map Prod.fst).nodup_iff.1 distinct
  rw [List.map_append, List.nodup_append] at apart
  exact fun rest => apart.2.2 handle held handle rest rfl

theorem owner_unique (distinct : (storage.objects.map Prod.fst).Nodup)
    (mine : storage.owned.find? first = some one) (theirs : storage.owned.find? second = some two)
    (held : handle ∈ one.objects.map Prod.fst) (shared : handle ∈ two.objects.map Prod.fst) :
    first = second := by
  by_contra differ
  have left : (storage.release first).owned.find? second = some two := by
    rw [← theirs]
    exact FiniteMap.find?_erase_of_ne storage.owned (Ne.symm differ)
  exact not_mem_release distinct mine held (mem_objects_of_owned left shared)

theorem state_owner_unique (distinct : (storage.objects.map Prod.fst).Nodup)
    (mine : storage.owned.find? first = some one) (theirs : storage.owned.find? second = some two)
    (same : one.state.handle = two.state.handle) : first = second :=
  owner_unique distinct mine theirs (OwnedState.mem_handles_iff.2 (.inl rfl))
    (OwnedState.mem_handles_iff.2 (.inl same))

theorem dict_owner_unique (distinct : (storage.objects.map Prod.fst).Nodup) {dict : DictHandle}
    {entries others : FiniteMap String Handle} (mine : storage.owned.find? first = some one)
    (theirs : storage.owned.find? second = some two) (read : one.dict? = some (dict, entries))
    (shared : two.dict? = some (dict, others)) : first = second :=
  owner_unique distinct mine theirs (one.holds_dict read) (two.holds_dict shared)

end Storage

theorem HandleTable.Tagged.removeHead {objects : HandleTable ManagedValue}
    {rest : List (Handle × ManagedValue)} {handle : Handle} {value : ManagedValue}
    (tagged : objects.Tagged) (lists : objects.Lists ((handle, value) :: rest))
    (other : value.kind ≠ .module) :
    ∃ after, objects.remove handle = .ok (some value, after) ∧ after.Tagged ∧ after.Lists rest := by
  obtain ⟨after, removed, listed⟩ := lists.remove
  have held := lists.get?_iff.2 List.mem_cons_self
  obtain ⟨same, again, kept, -⟩ := tagged.remove (tagged.get? held).1 other
  rw [removed] at again
  obtain ⟨-, rfl⟩ := Prod.mk.inj (Except.ok.inj again)
  exact ⟨after, removed, kept, listed⟩

namespace Host

variable {host after : Host} {storage : Storage} {thread : ThreadId}

/-- The table holds what the threads own, and the modules, each once and nothing else. -/
structure Represents (host : Host) (storage : Storage) : Prop where
  tagged : host.objects.Tagged
  objects : host.objects.Lists storage.objects
  threads : ∀ thread, host.threads.find? thread =
    (storage.owned.find? thread).map fun owned => owned.state.handle
  modules : ∀ index, host.modules.find? index = storage.entry index
  highest : host.highestIndex = storage.highest
  explicitAttach : host.explicitAttach = storage.explicitAttach

theorem new_represents (explicitAttach : Bool) :
    (Host.new explicitAttach).Represents (.start explicitAttach) :=
  ⟨HandleTable.empty_tagged, HandleTable.empty_lists, fun _ => rfl, fun _ => rfl, rfl, rfl⟩

theorem Represents.get?_threadState_iff (represents : host.Represents storage) {state : Handle}
    {dict? : Option Handle} : host.objects.get? state = some (.threadState dict?) ↔
      ∃ thread owned, storage.owned.find? thread = some owned ∧ owned.state.handle = state ∧
        owned.dictHandle? = dict? :=
  represents.objects.get?_iff.trans Storage.state_mem_objects_iff

theorem Represents.get?_dict_iff (represents : host.Represents storage) {dict : Handle}
    {entries : FiniteMap String Handle} : host.objects.get? dict = some (.dict entries) ↔
      ∃ thread owned held, storage.owned.find? thread = some owned ∧
        owned.dict? = some (held, entries) ∧ held.handle = dict :=
  represents.objects.get?_iff.trans Storage.dict_mem_objects_iff

theorem Represents.get?_module_iff (represents : host.Represents storage) {handle : Handle}
    {name : String} : host.objects.get? handle = some (.module name) ↔
      ∃ module, storage.names.find? module = some name ∧ module.handle = handle :=
  represents.objects.get?_iff.trans Storage.module_mem_objects_iff

theorem Represents.hostTagged (represents : host.Represents storage) : host.Tagged := by
  refine ⟨represents.tagged, ?_⟩
  intro thread handle found
  rw [represents.threads] at found
  obtain ⟨owned, -, rfl⟩ := Option.map_eq_some_iff.1 found
  exact owned.state.isKind

theorem Represents.newThreadState (represents : host.Represents storage)
    (missing : storage.owned.find? thread = none) :
    ∃ (state : ThreadStateHandle) (after : Host),
      host.newThreadState thread = .ok (state.handle, after) ∧
      (after.liveObjects ≤ HandleTable.capacity → storage.Unused state.handle ∧
        after.Represents (storage.put thread ⟨state, none⟩)) := by
  let fresh : ManagedValue := .threadState none
  obtain ⟨state, objects, stored, inserted⟩ :=
    represents.objects.sound.inserted fresh fresh.kind_ne_int
  change host.objects.insert .threadState (.threadState none) = _ at stored
  refine ⟨⟨state, inserted.ofKind⟩, { host with objects, threads := host.threads.insert thread state },
    by simp [Host.newThreadState, stored], ?_⟩
  intro within
  have size := inserted.size
  simp only [liveObjects] at within
  obtain ⟨unused, lists⟩ := represents.objects.insert inserted (by omega)
  refine ⟨unused, represents.tagged.insert ManagedValue.refers_fresh inserted, ?_, ?_,
    represents.modules, represents.highest, represents.explicitAttach⟩
  next =>
    rw [Storage.objects_put, Storage.objects_release_of_none missing]
    exact lists
  next =>
    intro other
    simp only [Storage.put, FiniteMap.find?_insert, represents.threads]
    split <;> rfl

-- The dict goes last, if there is one, and what goes last leaves the topmost free slot.
theorem Represents.drops (represents : host.Represents storage) (thread : ThreadId) :
    ∃ after, host.dropThreadState thread = .ok (storage.owned.contains thread, after) ∧
      after.Represents (storage.release thread) ∧
      ∀ owned, storage.owned.find? thread = some owned → ∃ table value,
        HandleTable.remove table owned.lastFreed = .ok (some value, after.objects) := by
  have threads : ∀ other, (host.threads.erase thread).find? other =
      ((storage.release thread).owned.find? other).map fun owned => owned.state.handle := by
    intro other
    simp only [Storage.release, FiniteMap.find?_erase, represents.threads]
    split <;> rfl
  have named := represents.threads thread
  unfold Host.dropThreadState FiniteMap.contains
  cases mine : storage.owned.find? thread with
  | none =>
    rw [mine] at named
    refine ⟨host, by simp only [named]; rfl, ⟨represents.tagged, ?_, ?_, represents.modules,
      represents.highest, represents.explicitAttach⟩, by simp⟩
    next =>
      rw [Storage.objects_release_of_none mine]
      exact represents.objects
    next =>
      intro other
      rw [← threads, FiniteMap.find?_erase]
      split
      next same => rw [same, named]; rfl
      next => rfl
  | some owned =>
    rw [mine] at named
    have lists := represents.objects.perm (Storage.objects_perm mine)
    simp only [named, Option.map_some, Option.some.injEq, forall_eq']
    cases read : owned.dict? with
    | none =>
      simp only [OwnedState.objects, read, List.cons_append, List.nil_append] at lists
      obtain ⟨objects, removed, tagged, lists⟩ :=
        represents.tagged.removeHead lists (by simp [ManagedValue.kind])
      refine ⟨{ host with objects, threads := host.threads.erase thread }, ?_, ⟨tagged, lists, threads,
        represents.modules, represents.highest, represents.explicitAttach⟩, host.objects,
        .threadState none, ?_⟩
      next =>
        simp only [removed]
        rfl
      next =>
        rw [OwnedState.lastFreed, OwnedState.dictHandle?, read]
        exact removed
    | some dict =>
      -- The dict is still in the table when its state is gone.
      simp only [OwnedState.objects, read, List.cons_append, List.nil_append] at lists
      obtain ⟨objects, removed, tagged, lists⟩ :=
        represents.tagged.removeHead lists (by simp [ManagedValue.kind])
      obtain ⟨last, gone, tagged, lists⟩ := tagged.removeHead lists (by simp [ManagedValue.kind])
      refine ⟨{ host with objects := last, threads := host.threads.erase thread }, ?_, ⟨tagged, lists,
        threads, represents.modules, represents.highest, represents.explicitAttach⟩, objects,
        .dict dict.2, ?_⟩
      next =>
        simp only [removed, bind, Except.bind, gone]
        rfl
      next =>
        rw [OwnedState.lastFreed, OwnedState.dictHandle?, read]
        exact gone

theorem Represents.dropThreadState (represents : host.Represents storage) (thread : ThreadId) :
    ∃ after, host.dropThreadState thread = .ok (storage.owned.contains thread, after) ∧
      after.Represents (storage.release thread) := by
  obtain ⟨after, dropped, released, -⟩ := represents.drops thread
  exact ⟨after, dropped, released⟩

end Host

end StateBridge
