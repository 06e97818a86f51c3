import StateBridge.Proofs.Host.Reads

set_option autoImplicit false

namespace StateBridge

def modulesMade : List HostEvent → List EventAnswer → List (ModuleHandle × String)
  | .call _ (.newModule name) :: events, .host (.module module) :: answers =>
    (module, name) :: modulesMade events answers
  | _ :: events, _ :: answers => modulesMade events answers
  | _, _ => []

/-- Each object has one owner: a state its thread, a dict its state. The rest are modules. -/
structure Host.Accounted (host : Host) (made : List (ModuleHandle × String))
    (read : ThreadId → Bool) : Prop where
  stateOfThread : ∀ {thread state}, host.threads.find? thread = some state →
    ∃ dict?, host.objects.get? state = some (.threadState dict?)
  distinctStates : ∀ {first second state}, host.threads.find? first = some state →
    host.threads.find? second = some state → first = second
  threadOfState : ∀ {state dict?}, host.objects.get? state = some (.threadState dict?) →
    ∃! thread, host.threads.find? thread = some state
  dictOfState : ∀ {state dict}, host.objects.get? state = some (.threadState (some dict)) →
    ∃ entries, host.objects.get? dict = some (.dict entries)
  stateOfDict : ∀ {dict entries}, host.objects.get? dict = some (.dict entries) →
    ∃! state, host.objects.get? state = some (.threadState (some dict))
  modules : ∀ {handle name}, host.objects.get? handle = some (.module name) ↔
    ∃ module : ModuleHandle, module.handle = handle ∧ (module, name) ∈ made
  linked : ∀ {thread state}, host.threads.find? thread = some state →
    (read thread = true ↔ ∃ dict, host.objects.get? state = some (.threadState (some dict)))
  count : host.liveObjects = made.length + host.threads.size +
    host.threads.entries.countP fun entry => read entry.1

section

variable {storage next last : Storage} {thread : ThreadId}

theorem ResolveStep.names {answer : Except UpcallError ThreadStateHandle}
    (step : ResolveStep storage thread answer next) : next.names = storage.names := by
  cases step <;> rfl

theorem DictStep.names {state : Handle} {answer : Except UpcallError DictHandle}
    (step : DictStep storage state answer next) : next.names = storage.names := by
  cases step <;> rfl

theorem QueryStep.names {query : HostQuery} {answer : Except UpcallError Handle}
    (step : QueryStep storage thread query answer next) : next.names = storage.names := by
  cases step with
  | resolve step => exact step.names
  | dictOf step => exact step.names
  | find | add | addDead | remove | assign | exhausted => rfl

theorem StorageStep.names {event : HostEvent} {answer : EventAnswer}
    (step : StorageStep storage event answer next) (events : List HostEvent)
    (answers : List EventAnswer) :
    (modulesMade events answers ++ next.names.entries).Perm
      (modulesMade (event :: events) (answer :: answers) ++ storage.names.entries) := by
  cases step with
  | @newModule thread name module unused =>
    have missing := (Storage.objects_addModule unused name).1
    simp only [modulesMade, Storage.addModule, FiniteMap.entries_insert_of_find?_none missing,
      List.cons_append]
    exact List.perm_middle
  | answered caller asks step => rw [step.names]; exact .refl _
  | current bridge step => rw [step.names]; exact .refl _
  | currentDict bridge resolved step => rw [step.names, resolved.names]; exact .refl _
  | unresolved bridge step => rw [step.names]; exact .refl _
  | dictOf bridge caller step => rw [step.names]; exact .refl _
  | _ => exact .refl _

theorem StorageRun.names {events : List HostEvent} {answers : List EventAnswer}
    (run : StorageRun storage events answers last) :
    last.names.entries.Perm (modulesMade events answers ++ storage.names.entries) := by
  induction run with
  | done storage => exact .refl _
  | next step rest ih => exact ih.trans (step.names _ _)

end

theorem OwnedState.length_objects (owned : OwnedState) :
    owned.objects.length = 1 + if owned.dict?.isSome then 1 else 0 := by
  unfold OwnedState.objects
  cases owned.dict? <;> rfl

theorem Storage.length_objects (storage : Storage) :
    storage.objects.length = storage.names.size + storage.owned.size +
      storage.owned.entries.countP fun entry => entry.2.dict?.isSome := by
  have split (entries : List (ThreadId × OwnedState)) :
      (entries.flatMap fun entry => entry.2.objects).length =
        entries.length + entries.countP fun entry => entry.2.dict?.isSome := by
    induction entries with
    | nil => rfl
    | cons entry rest ih =>
      simp only [List.flatMap_cons, List.length_append, List.length_cons, List.countP_cons, ih,
        OwnedState.length_objects]
      omega
  simp only [Storage.objects, List.length_append, List.length_map, split, FiniteMap.size]
  omega

namespace Host

variable {host : Host} {storage : Storage} {thread : ThreadId} {owned : OwnedState}

theorem Represents.threads_perm (represents : host.Represents storage) :
    host.threads.entries.Perm
      (storage.owned.entries.map fun entry => (entry.1, entry.2.state.handle)) := by
  refine (List.perm_ext_iff_of_nodup (List.Nodup.of_map Prod.fst host.threads.distinct)
    (List.Nodup.of_map Prod.fst ?_)).2 ?_
  next =>
    rw [List.map_map]
    exact storage.owned.distinct
  next =>
    rintro ⟨thread, state⟩
    rw [FiniteMap.mem_entries_iff, represents.threads]
    simp only [Option.map_eq_some_iff, List.mem_map, Prod.exists, Prod.mk.injEq,
      FiniteMap.mem_entries_iff]
    constructor
    next =>
      rintro ⟨owned, mine, named⟩
      exact ⟨thread, owned, mine, rfl, named⟩
    next =>
      rintro ⟨owner, owned, mine, rfl, named⟩
      exact ⟨owned, mine, named⟩

theorem Represents.liveObjects_eq (represents : host.Represents storage) :
    host.liveObjects = storage.names.size + host.threads.size +
      host.threads.entries.countP fun entry => storage.hasDict entry.1 := by
  have threads := represents.threads_perm
  have dicts : host.threads.entries.countP (fun entry => storage.hasDict entry.1) =
      storage.owned.entries.countP fun entry => entry.2.dict?.isSome := by
    rw [threads.countP_eq, List.countP_map]
    apply List.countP_congr
    rintro ⟨thread, owned⟩ member
    rw [Function.comp_apply, Storage.hasDict_of_find? (FiniteMap.mem_entries_iff.1 member)]
  have size : host.threads.size = storage.owned.size := by
    rw [FiniteMap.size, threads.length_eq, List.length_map]
    rfl
  rw [dicts, size, liveObjects, represents.objects.size_eq, Storage.length_objects]

theorem Represents.find?_threads_iff (represents : host.Represents storage) {state : Handle} :
    host.threads.find? thread = some state ↔
      ∃ owned, storage.owned.find? thread = some owned ∧ owned.state.handle = state := by
  rw [represents.threads, Option.map_eq_some_iff]

theorem Represents.state_of_thread (represents : host.Represents storage) {state : Handle}
    (found : host.threads.find? thread = some state) :
    ∃ dict?, host.objects.get? state = some (.threadState dict?) := by
  obtain ⟨owned, mine, rfl⟩ := represents.find?_threads_iff.1 found
  exact ⟨owned.dictHandle?, represents.get?_state mine⟩

theorem Represents.hasDict_iff (represents : host.Represents storage) {state : Handle}
    (found : host.threads.find? thread = some state) : storage.hasDict thread = true ↔
      ∃ dict, host.objects.get? state = some (.threadState (some dict)) := by
  obtain ⟨owned, mine, rfl⟩ := represents.find?_threads_iff.1 found
  rw [Storage.hasDict_of_find? mine, represents.get?_state mine, OwnedState.dictHandle?]
  cases owned.dict? <;> simp

theorem Represents.distinct_states (represents : host.Represents storage) {first second : ThreadId}
    {state : Handle} (one : host.threads.find? first = some state)
    (two : host.threads.find? second = some state) : first = second := by
  obtain ⟨owned, mine, same⟩ := represents.find?_threads_iff.1 one
  obtain ⟨other, theirs, again⟩ := represents.find?_threads_iff.1 two
  exact Storage.state_owner_unique represents.objects.distinct mine theirs (same.trans again.symm)

theorem Represents.thread_of_state (represents : host.Represents storage) {state : Handle}
    {dict? : Option Handle} (found : host.objects.get? state = some (.threadState dict?)) :
    ∃! thread, host.threads.find? thread = some state := by
  obtain ⟨thread, owned, mine, same, -⟩ := represents.get?_threadState_iff.1 found
  have here := represents.find?_threads_iff.2 ⟨owned, mine, same⟩
  exact ⟨thread, here, fun other there => represents.distinct_states there here⟩

theorem Represents.dict_of_state (represents : host.Represents storage) {state dict : Handle}
    (found : host.objects.get? state = some (.threadState (some dict))) :
    ∃ entries, host.objects.get? dict = some (.dict entries) := by
  obtain ⟨thread, owned, mine, -, linked⟩ := represents.get?_threadState_iff.1 found
  obtain ⟨⟨held, entries⟩, read, rfl⟩ := Option.map_eq_some_iff.1 linked
  exact ⟨entries, represents.get?_dict_iff.2 ⟨thread, owned, held, mine, read, rfl⟩⟩

theorem Represents.state_of_dict (represents : host.Represents storage) {dict : Handle}
    {entries : FiniteMap String Handle} (found : host.objects.get? dict = some (.dict entries)) :
    ∃! state, host.objects.get? state = some (.threadState (some dict)) := by
  obtain ⟨thread, owned, held, mine, read, rfl⟩ := represents.get?_dict_iff.1 found
  have linked : owned.dictHandle? = some held.handle := by
    simp only [OwnedState.dictHandle?, read, Option.map_some]
  refine ⟨owned.state.handle, represents.get?_threadState_iff.2 ⟨thread, owned, mine, rfl, linked⟩, ?_⟩
  intro state other
  obtain ⟨owner, theirs, live, rfl, same⟩ := represents.get?_threadState_iff.1 other
  obtain rfl := Storage.owner_unique represents.objects.distinct mine live (owned.holds_dict read)
    (OwnedState.mem_handles_iff.2 (.inr same))
  rw [mine] at live
  cases live
  rfl

theorem Represents.module_iff (represents : host.Represents storage)
    {made : List (ModuleHandle × String)} (names : storage.names.entries.Perm made) {handle : Handle}
    {name : String} : host.objects.get? handle = some (.module name) ↔
      ∃ module : ModuleHandle, module.handle = handle ∧ (module, name) ∈ made := by
  simp only [represents.get?_module_iff, ← FiniteMap.mem_entries_iff, names.mem_iff, and_comm]

theorem Represents.accounted (represents : host.Represents storage)
    {made : List (ModuleHandle × String)} (names : storage.names.entries.Perm made) :
    host.Accounted made storage.hasDict where
  stateOfThread := represents.state_of_thread
  distinctStates := represents.distinct_states
  threadOfState := represents.thread_of_state
  dictOfState := represents.dict_of_state
  stateOfDict := represents.state_of_dict
  modules := represents.module_iff names
  linked := represents.hasDict_iff
  count := by rw [represents.liveObjects_eq, FiniteMap.size, names.length_eq]

end Host

-- No object is lost to its owner and none has two, and there are no more than were made and read.
theorem no_object_leaks (explicitAttach : Bool) (process : Process Host)
    (new : process.world = .new explicitAttach) (events : List HostEvent)
    (stays : process.StaysWithin events) : ∃ answers after,
      playEvents events process = .ok answers after ∧
      after.world.Accounted (modulesMade events answers)
        (process.dictReads events fun _ => false) := by
  have start : process.world.Represents (.start explicitAttach) :=
    new ▸ Host.new_represents explicitAttach
  obtain ⟨answers, after, storage, run⟩ := start.run stays
  have names := run.stored.names
  simp only [Storage.start, FiniteMap.empty, List.append_nil] at names
  have reads : process.dictReads events (fun _ => false) = storage.hasDict := run.dictReads
  rw [reads]
  exact ⟨answers, after, run.played, run.final.accounted names⟩

-- The dict of one thread is read by another, and the owner switches its state afterwards.
theorem no_object_leaks_switched_owner :
    let state : ThreadStateHandle := ⟨⟨0x0200010000000000⟩, by decide⟩
    let process : Process Host := .start (.new true)
    let events : List HostEvent :=
      [.call ⟨0⟩ .attach, .bridged ⟨0⟩ ⟨1⟩ (.dictOf state), .call ⟨1⟩ (.newModule "m"),
        .bridged ⟨0⟩ ⟨1⟩ .currentDict, .call ⟨0⟩ .switch, .bridged ⟨1⟩ ⟨1⟩ (.dictOf state),
        .call ⟨1⟩ .attach, .bridged ⟨0⟩ ⟨1⟩ .currentDict, .call ⟨2⟩ .attach, .exit ⟨2⟩]
    let read := process.dictReads events fun _ => false
    process.world = .new true ∧ process.StaysWithin events ∧
      (read ⟨0⟩, read ⟨1⟩, read ⟨2⟩) = (false, true, false) ∧ ∃ answers after,
        playEvents events process = .ok answers after ∧
        after.world.Accounted (modulesMade events answers) read ∧
        (modulesMade events answers).length = 1 ∧ after.world.threads.size = 2 ∧
        after.world.liveObjects = 4 := by
  intro state process events read
  have stays : process.StaysWithin events := by decide +kernel
  have computed : (Process.outcome (playEvents events process)).map (fun (answers, shared) =>
      ((modulesMade events answers).length, shared.world.threads.size, shared.world.liveObjects)) =
        .ok (1, 2, 4) := by
    decide +kernel
  obtain ⟨answers, after, ran, accounted⟩ := no_object_leaks true process rfl events stays
  rw [ran] at computed
  have counts := Except.ok.inj computed
  exact ⟨rfl, stays, by decide +kernel, answers, after, ran, accounted, congrArg Prod.fst counts,
    congrArg (fun count => count.2.1) counts, congrArg (fun count => count.2.2) counts⟩

end StateBridge
