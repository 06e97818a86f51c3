import StateBridge.Proofs.Host.Ownership

set_option autoImplicit false

namespace StateBridge

namespace Host

variable {host : Host} {storage : Storage} {thread : ThreadId}

-- As long as there is room, the host goes on to represent the storage.
def Follows {α : Type} (outcome : Except Fault (α × Host)) (step : α → Storage → Prop) : Prop :=
  ∃ result after, outcome = .ok (result, after) ∧
    (after.liveObjects ≤ HandleTable.capacity → ∃ next, step result next ∧ after.Represents next)

theorem Represents.same {α : Type} (represents : host.Represents storage) {result : α}
    {step : α → Storage → Prop} (stays : step result storage) : Follows (.ok (result, host)) step :=
  ⟨result, host, rfl, fun _ => ⟨storage, stays, represents⟩⟩

theorem Represents.resolve_owned (represents : host.Represents storage) {owned : OwnedState}
    (mine : storage.owned.find? thread = some owned) :
    host.answer thread .resolve = .ok (.ok owned.state.handle, host) := by
  have named := represents.threads thread
  unfold Host.answer
  simp only [named, mine, Option.map_some]
  rfl

theorem Represents.resolve (represents : host.Represents storage) (thread : ThreadId) :
    ∃ (answer : Except UpcallError ThreadStateHandle) (after : Host),
      host.answer thread .resolve = .ok (answer.map TypedHandle.handle, after) ∧
      (after.liveObjects ≤ HandleTable.capacity →
        ∃ next, ResolveStep storage thread answer next ∧ after.Represents next) := by
  cases mine : storage.owned.find? thread with
  | some owned =>
    exact ⟨.ok owned.state, host, represents.resolve_owned mine,
      fun _ => ⟨storage, .owned mine, represents⟩⟩
  | none =>
    have named := represents.threads thread
    unfold Host.answer
    simp only [named, mine, Option.map_none, represents.explicitAttach]
    cases waits : storage.explicitAttach with
    | true =>
      exact ⟨.error .noThreadState, host, rfl, fun _ => ⟨storage, .unattached mine waits, represents⟩⟩
    | false =>
      obtain ⟨state, after, made, kept⟩ := represents.newThreadState mine
      refine ⟨.ok state, after, by simp only [made]; rfl, ?_⟩
      intro within
      obtain ⟨unused, represents⟩ := kept within
      exact ⟨_, .made mine waits unused, represents⟩

theorem Represents.get?_state (represents : host.Represents storage) {owned : OwnedState}
    (live : storage.owned.find? thread = some owned) :
    host.objects.get? owned.state.handle = some (.threadState owned.dictHandle?) :=
  represents.get?_threadState_iff.2 ⟨thread, owned, live, rfl, rfl⟩

theorem Represents.firstDict (represents : host.Represents storage) {owned : OwnedState}
    (live : storage.owned.find? thread = some owned) (unread : owned.dict? = none) :
    ∃ (dict : DictHandle) (objects : HandleTable ManagedValue),
      host.objects.insert .dict (.dict .empty) = .ok (dict.handle, objects) ∧
      (objects.size ≤ HandleTable.capacity → storage.Unused dict.handle ∧
        { host with objects := objects.set owned.state.handle (.threadState (some dict.handle)) }.Represents
          (storage.put thread { owned with dict? := some (dict, .empty) })) := by
  let fresh : ManagedValue := .dict .empty
  obtain ⟨dict, objects, stored, inserted⟩ :=
    represents.objects.sound.inserted fresh fresh.kind_ne_int
  refine ⟨⟨dict, inserted.ofKind⟩, objects, stored, ?_⟩
  intro within
  have size := inserted.size
  obtain ⟨unused, lists⟩ := represents.objects.insert inserted (by omega)
  have present := inserted.keeps _ _ (represents.get?_state live)
  have refers : (ManagedValue.threadState (some dict)).Refers := by
    intro other same
    cases same
    exact inserted.ofKind
  refine ⟨unused, (represents.tagged.insert (ManagedValue.refers_dict _) inserted).set refers present
    rfl, ?_, ?_, represents.modules, represents.highest, represents.explicitAttach⟩
  next =>
    -- The state comes to the front, where the link is written over it.
    have front := (Storage.objects_perm live).cons (dict, fresh)
    simp only [OwnedState.objects, unread, List.cons_append, List.nil_append] at front
    rw [Storage.objects_put]
    simp only [OwnedState.objects, List.cons_append, List.nil_append]
    exact (lists.perm (front.trans (.swap ..))).set _
  next =>
    intro other
    simp only [Storage.put, FiniteMap.find?_insert, represents.threads]
    split
    next same => rw [same, live]; rfl
    next => rfl

theorem Represents.dictOf_read (represents : host.Represents storage) {owned : OwnedState}
    {dict : DictHandle} {entries : FiniteMap String Handle} {owner : ThreadId}
    (mine : storage.owned.find? owner = some owned) (read : owned.dict? = some (dict, entries))
    (thread : ThreadId) : host.answer thread (.dictOf owned.state.handle) =
      .ok (.ok dict.handle, host) := by
  have found := represents.get?_state mine
  unfold OwnedState.dictHandle? at found
  simp only [read, Option.map_some] at found
  unfold Host.answer
  simp only [found]
  rfl

theorem Represents.dictOf (represents : host.Represents storage) (thread : ThreadId)
    (state : Handle) : ∃ (answer : Except UpcallError DictHandle) (after : Host),
      host.answer thread (.dictOf state) = .ok (answer.map TypedHandle.handle, after) ∧
      (after.liveObjects ≤ HandleTable.capacity →
        ∃ next, DictStep storage state answer next ∧ after.Represents next) := by
  by_cases live : ∃ owner owned, storage.owned.find? owner = some owned ∧ owned.state.handle = state
  next =>
    obtain ⟨owner, owned, mine, rfl⟩ := live
    cases read : owned.dict? with
    | some dict =>
      exact ⟨.ok dict.1, host, represents.dictOf_read mine read thread,
        fun _ => ⟨storage, .present mine rfl read, represents⟩⟩
    | none =>
      have found := represents.get?_state mine
      unfold OwnedState.dictHandle? at found
      simp only [read, Option.map_none] at found
      unfold Host.answer
      obtain ⟨dict, objects, stored, kept⟩ := represents.firstDict mine read
      refine ⟨.ok dict, { host with
        objects := objects.set owned.state.handle (.threadState (some dict.handle)) },
        by simp only [found, stored]; rfl, ?_⟩
      intro within
      obtain ⟨unused, represents⟩ := kept ((HandleTable.live_set _ _).symm.trans_le within)
      exact ⟨_, .made mine rfl read unused, represents⟩
  next =>
    have none_such : ∀ owner owned, storage.owned.find? owner = some owned →
        owned.state.handle ≠ state := fun owner owned mine same => live ⟨owner, owned, mine, same⟩
    refine ⟨.error (.invalidArgument .threadStateDict .notLiveThreadState), host, ?_,
      fun _ => ⟨storage, .dead none_such, represents⟩⟩
    unfold Host.answer
    cases found : host.objects.get? state with
    | none =>
      simp only [found]
      rfl
    | some value =>
      cases value with
      | threadState dict? =>
        obtain ⟨owner, owned, mine, same, -⟩ := represents.get?_threadState_iff.1 found
        exact absurd same (none_such owner owned mine)
      | dict entries =>
        simp only [found]
        rfl
      | module name =>
        simp only [found]
        rfl

theorem Represents.dictEntries?_iff (represents : host.Represents storage) {dict : DictHandle}
    {entries : FiniteMap String Handle} :
    host.dictEntries? dict = some entries ↔ storage.Reads dict entries := by
  have listed : host.objects.get? dict.handle = some (.dict entries) ↔ storage.Reads dict entries := by
    rw [represents.get?_dict_iff]
    constructor
    next =>
      rintro ⟨owner, owned, found, live, read, same⟩
      cases found
      cases dict
      cases same
      exact ⟨owner, owned, live, read⟩
    next =>
      rintro ⟨owner, owned, live, read⟩
      exact ⟨owner, owned, dict, live, read, rfl⟩
  rw [← listed]
  unfold Host.dictEntries?
  cases host.objects.get? dict.handle with
  | none => simp
  | some value => cases value <;> simp

theorem Represents.dictEntries?_eq_none (represents : host.Represents storage) {dict : DictHandle}
    (missing : host.dictEntries? dict = none) : ∀ entries, ¬ storage.Reads dict entries := by
  intro entries reads
  rw [represents.dictEntries?_iff.2 reads] at missing
  cases missing

theorem Represents.dictSet (represents : host.Represents storage) {owned : OwnedState}
    {dict : DictHandle} {entries : FiniteMap String Handle}
    (live : storage.owned.find? thread = some owned) (read : owned.dict? = some (dict, entries))
    (key : String) (value : Handle) :
    host.dictSet dict key value = (true, { host with
        objects := host.objects.set dict.handle (.dict (entries.insert key value)) }) ∧
      { host with objects := host.objects.set dict.handle (.dict (entries.insert key value)) }.Represents
        (storage.put thread { owned with dict? := some (dict, entries.insert key value) }) := by
  have found := represents.dictEntries?_iff.2 ⟨thread, owned, live, read⟩
  have present : host.objects.get? dict.handle = some (.dict entries) :=
    represents.get?_dict_iff.2 ⟨thread, owned, dict, live, read, rfl⟩
  refine ⟨by simp only [Host.dictSet, found],
    represents.tagged.set (ManagedValue.refers_dict _) present rfl, ?_, ?_, represents.modules,
    represents.highest, represents.explicitAttach⟩
  next =>
    have front := Storage.objects_perm live
    simp only [OwnedState.objects, read, List.cons_append, List.nil_append] at front
    rw [Storage.objects_put]
    simp only [OwnedState.objects, List.cons_append, List.nil_append]
    exact ((represents.objects.perm (front.trans (.swap ..))).set _).perm (.swap ..)
  next =>
    intro other
    simp only [Storage.put, FiniteMap.find?_insert, represents.threads]
    split
    next same => rw [same, live]; rfl
    next => rfl

theorem Represents.newModule (represents : host.Represents storage) (name : String) :
    ∃ module after, host.newModule name = .ok (module, after) ∧
      (after.liveObjects ≤ HandleTable.capacity → storage.Unused module.handle ∧
        after.Represents (storage.addModule module name)) := by
  let fresh : ManagedValue := .module name
  obtain ⟨module, objects, stored, inserted⟩ :=
    represents.objects.sound.inserted fresh fresh.kind_ne_int
  change host.objects.insert .module (.module name) = _ at stored
  have ofKind : module.kind? = some .module := inserted.ofKind
  let made : ModuleHandle := ⟨module, ofKind⟩
  refine ⟨made, { host with objects }, ?_, ?_⟩
  next =>
    unfold Host.newModule
    simp only [stored, bind, Except.bind, typed, TypedHandle.ofHandle?, ofKind, dite_true]
    rfl
  next =>
    intro within
    have size := inserted.size
    simp only [liveObjects] at within
    obtain ⟨unused, lists⟩ := represents.objects.insert inserted (by omega)
    have unused : storage.Unused made.handle := unused
    have front := Storage.objects_addModule unused name
    exact ⟨unused, represents.tagged.insert (ManagedValue.refers_module name) inserted,
      lists.perm front.2.symm, represents.threads, represents.modules, represents.highest,
      represents.explicitAttach⟩

theorem Represents.moduleName? (represents : host.Represents storage) (module : ModuleHandle) :
    host.moduleName? module = storage.names.find? module := by
  have listed : ∀ name, host.objects.get? module.handle = some (.module name) ↔
      storage.names.find? module = some name := by
    intro name
    rw [represents.get?_module_iff]
    constructor
    next =>
      rintro ⟨found, named, same⟩
      cases found
      cases module
      cases same
      exact named
    next =>
      intro named
      exact ⟨module, named, rfl⟩
  ext name
  rw [Host.moduleName?_eq_some_iff, listed]

theorem Represents.liveModule?_eq_some_iff (represents : host.Represents storage) {handle : Handle}
    {module : ModuleHandle} : host.liveModule? handle = some module ↔
      module.handle = handle ∧ (storage.names.find? module).isSome := by
  rw [← represents.moduleName? module, Host.liveModule?_eq_some_iff]

theorem Represents.noteIndex (represents : host.Represents storage) (index : ModuleIndex) :
    (host.noteIndex index).Represents (storage.noteIndex index) :=
  ⟨represents.tagged, represents.objects, represents.threads, represents.modules,
    congrArg (max · index.value) represents.highest, represents.explicitAttach⟩

theorem Represents.setEntry (represents : host.Represents storage) {index : ModuleIndex}
    {modules : ModuleRegistry} {module? : Option ModuleHandle} (stored : ∀ other,
      modules.find? other = if other = index then module? else host.modules.find? other) :
    { host.noteIndex index with modules }.Represents (storage.setEntry index module?) := by
  have noted := represents.noteIndex index
  refine ⟨noted.tagged, noted.objects, noted.threads, ?_, noted.highest, noted.explicitAttach⟩
  intro other
  rw [stored, represents.modules]
  simp only [Storage.setEntry, Function.update_apply]

theorem Represents.add (represents : host.Represents storage) (thread : ThreadId) (handle : Handle)
    (index : ModuleIndex) :
    Follows (host.answer thread (.add handle index)) (QueryStep storage thread (.add handle index)) := by
  unfold Host.answer
  cases live : host.liveModule? handle with
  | some module =>
    obtain ⟨rfl, known⟩ := represents.liveModule?_eq_some_iff.1 live
    have stored := represents.setEntry fun other =>
      ModuleRegistry.find?_insert host.modules index other module
    refine ⟨_, { host.noteIndex index with modules := (host.modules.insert index module).2 }, ?_,
      fun _ => ⟨_, .add index known, stored⟩⟩
    simp only [live, ← represents.modules]
    rfl
  | none =>
    have none_such : ∀ module : ModuleHandle, module.handle = handle →
        storage.names.find? module = none := by
      intro module same
      rw [Option.eq_none_iff_forall_ne_some]
      intro name found
      rw [represents.liveModule?_eq_some_iff.2 ⟨same, by simp [found]⟩] at live
      cases live
    simp only [live]
    exact represents.same (.addDead index none_such)

theorem Represents.assign (represents : host.Represents storage) (thread : ThreadId) :
    Follows (host.answer thread .assign) (QueryStep storage thread .assign) := by
  have upper : host.upperIndex = storage.upperIndex := by
    simp only [Host.upperIndex, Storage.upperIndex, represents.highest]
  unfold Host.answer Host.nextIndex?
  rw [upper]
  by_cases fits : storage.upperIndex.Fits
  next =>
    obtain ⟨handle, made, -, -⟩ := fits.ofInt
    have noted := represents.noteIndex storage.upperIndex
    have raised : max host.highestIndex storage.upperIndex.value = storage.upperIndex.value := by
      simp only [represents.highest, Storage.upperIndex]
      omega
    simp only [Host.noteIndex, raised] at noted
    refine ⟨.ok handle, { host with highestIndex := storage.upperIndex.value }, ?_,
      fun _ => ⟨_, .assign fits made, noted⟩⟩
    simp only [fits, if_true, made]
    rfl
  next =>
    simp only [fits, if_false]
    exact represents.same (.exhausted fits)

theorem Represents.answer (represents : host.Represents storage) (thread : ThreadId)
    (query : HostQuery) : Follows (host.answer thread query) (QueryStep storage thread query) := by
  cases query with
  | resolve =>
    obtain ⟨answer, after, answered, kept⟩ := represents.resolve thread
    refine ⟨_, after, answered, ?_⟩
    intro within
    obtain ⟨next, step, represents⟩ := kept within
    exact ⟨next, .resolve step, represents⟩
  | dictOf state =>
    obtain ⟨answer, after, answered, kept⟩ := represents.dictOf thread state
    refine ⟨_, after, answered, ?_⟩
    intro within
    obtain ⟨next, step, represents⟩ := kept within
    exact ⟨next, .dictOf step, represents⟩
  | find index =>
    refine ⟨_, host.noteIndex index, ?_, fun _ => ⟨_, .find index, represents.noteIndex index⟩⟩
    rw [← represents.modules]
    rfl
  | add module index => exact represents.add thread module index
  | remove index =>
    have stored := represents.setEntry fun other => ModuleRegistry.find?_remove host.modules index other
    refine ⟨_, { host.noteIndex index with modules := (host.modules.remove index).2 }, ?_,
      fun _ => ⟨_, .remove index, stored⟩⟩
    rw [← represents.modules]
    rfl
  | assign => exact represents.assign thread

theorem Represents.attach (represents : host.Represents storage) (thread : ThreadId) :
    Follows (host.attach thread) fun state next =>
      StorageStep storage (.call thread .attach) (.host (.threadState state)) next := by
  have named := represents.threads thread
  unfold Host.attach
  cases mine : storage.owned.find? thread with
  | some owned =>
    simp only [named, mine, Option.map_some, typed_threadState owned.state.isKind]
    exact represents.same (.attached mine)
  | none =>
    obtain ⟨state, after, made, kept⟩ := represents.newThreadState mine
    simp only [named, mine, Option.map_none, made, bind, Except.bind,
      typed_threadState state.isKind]
    refine ⟨state, after, rfl, ?_⟩
    intro within
    obtain ⟨unused, represents⟩ := kept within
    exact ⟨_, .attach mine unused, represents⟩

theorem Represents.switch (represents : host.Represents storage) (thread : ThreadId) :
    Follows (host.switch thread) fun state next =>
      StorageStep storage (.call thread .switch) (.host (.threadState state)) next := by
  obtain ⟨middle, dropped, between⟩ := represents.dropThreadState thread
  obtain ⟨state, after, made, kept⟩ :=
    between.newThreadState (FiniteMap.find?_erase_self storage.owned thread)
  refine ⟨state, after, ?_, ?_⟩
  next =>
    unfold Host.switch
    simp only [dropped, made, bind, Except.bind, typed_threadState state.isKind]
    rfl
  next =>
    intro within
    obtain ⟨unused, represents⟩ := kept within
    exact ⟨_, .switch unused, represents⟩

theorem Follows.map {α β : Type} {outcome : Except Fault (α × Host)} {step : β → Storage → Prop}
    (present : α → β) (follows : Follows outcome fun result next => step (present result) next) :
    Follows (do let (result, after) ← outcome; return (present result, after)) step := by
  obtain ⟨result, after, rfl, kept⟩ := follows
  exact ⟨present result, after, rfl, kept⟩

theorem Represents.onDict (represents : host.Represents storage) (thread : ThreadId)
    (dict : DictHandle) (key : String) (value : Handle) :
    (Follows (host.call thread (.dictSet dict key value)) fun answer next =>
      StorageStep storage (.call thread (.dictSet dict key value)) (.host answer) next) ∧
    StorageStep storage (.call thread (.dictGet dict key)) (.host (.entry (host.dictGet? dict key)))
      storage ∧
    StorageStep storage (.call thread (.dictSize dict)) (.host (.size (host.dictSize? dict)))
      storage := by
  cases found : host.dictEntries? dict with
  | some entries =>
    have reads := represents.dictEntries?_iff.1 found
    simp only [Host.dictGet?, Host.dictSize?, found]
    refine ⟨?_, .dictGet thread key reads, .dictSize thread reads⟩
    obtain ⟨owner, owned, live, read⟩ := reads
    obtain ⟨written, represents⟩ := represents.dictSet live read key value
    have stored : host.call thread (.dictSet dict key value) = .ok (.flag true, { host with
        objects := host.objects.set dict.handle (.dict (entries.insert key value)) }) := by
      simp only [Host.call, written]
      rfl
    exact ⟨_, _, stored, fun _ => ⟨_, .dictSet thread key value live read, represents⟩⟩
  | none =>
    have dead := represents.dictEntries?_eq_none found
    simp only [Host.dictGet?, Host.dictSize?, found]
    refine ⟨?_, .dictGetDead thread key dead, .dictSizeDead thread dead⟩
    have refused : host.call thread (.dictSet dict key value) = .ok (.flag false, host) := by
      simp only [Host.call, Host.dictSet, found]
      rfl
    rw [refused]
    exact represents.same (.dictSetDead thread key value dead)

theorem Represents.invoke (represents : host.Represents storage) (thread : ThreadId) (op : UpcallOp)
    (args : List Handle) : Follows (host.invoke thread op args) fun answer next =>
      StorageStep storage (.call thread (.invoke op args)) (.host (.upcall answer)) next := by
  rw [invoke_eq]
  cases asks : HostQuery.read op args with
  | error error => exact represents.same (.refused thread asks)
  | ok query =>
    obtain ⟨answer, after, answered, kept⟩ := represents.answer thread query
    refine ⟨answer, after, answered, ?_⟩
    intro within
    obtain ⟨next, step, represents⟩ := kept within
    exact ⟨next, .answered thread asks step, represents⟩

theorem Represents.call (represents : host.Represents storage) (thread : ThreadId)
    (request : HostCall) : Follows (host.call thread request) fun answer next =>
      StorageStep storage (.call thread request) (.host answer) next := by
  cases request with
  | attach => exact Follows.map HostAnswer.threadState (represents.attach thread)
  | switch => exact Follows.map HostAnswer.threadState (represents.switch thread)
  | detach =>
    obtain ⟨after, dropped, represents⟩ := represents.dropThreadState thread
    refine Follows.map HostAnswer.flag ⟨_, after, dropped, ?_⟩
    exact fun _ => ⟨_, .detach thread, represents⟩
  | newModule name =>
    obtain ⟨module, after, made, kept⟩ := represents.newModule name
    refine Follows.map HostAnswer.module ⟨module, after, made, ?_⟩
    intro within
    obtain ⟨unused, represents⟩ := kept within
    exact ⟨_, .newModule thread name unused, represents⟩
  | moduleName module =>
    have same := represents.moduleName? module
    simp only [Host.call, same]
    exact represents.same (.moduleName thread module)
  | dictSet dict key value => exact (represents.onDict thread dict key value).1
  | dictGet dict key => exact represents.same (represents.onDict thread dict key .null).2.1
  | dictSize dict => exact represents.same (represents.onDict thread dict "" .null).2.2
  | registeredModule index =>
    have same : host.registeredModule? index = storage.entry index := represents.modules index
    simp only [Host.call, same]
    exact represents.same (.registeredModule thread index)
  | invoke op args => exact Follows.map HostAnswer.upcall (represents.invoke thread op args)

end Host

end StateBridge
