import StateBridge.Proofs.Host.Runs

set_option autoImplicit false

namespace StateBridge

theorem lastStored?_append (dict : DictHandle) (key : String) (events more : List HostEvent) :
    lastStored? dict key (events ++ more) =
      (lastStored? dict key more).or (lastStored? dict key events) := by
  simp only [lastStored?, List.reverse_append, List.findSome?_append]

theorem lastStored?_singleton (dict : DictHandle) (key : String) (event : HostEvent) :
    lastStored? dict key [event] = event.stored? dict key := by
  simp [lastStored?]

-- As long as a thread keeps its state, its dict changes under the keys that were stored to and nowhere else.
structure OwnedState.Keeps (owned later : OwnedState) (events : List HostEvent) : Prop where
  state : later.state = owned.state
  dict : ∀ dict entries, owned.dict? = some (dict, entries) →
    ∃ changed, later.dict? = some (dict, changed) ∧
      ∀ key, changed.find? key = (lastStored? dict key events).or (entries.find? key)

namespace OwnedState

variable {owned middle later : OwnedState} {event : HostEvent} {events more : List HostEvent}

theorem Keeps.refl (owned : OwnedState) : owned.Keeps owned [] :=
  ⟨rfl, fun _ entries read => ⟨entries, read, fun _ => rfl⟩⟩

theorem Keeps.trans (first : owned.Keeps middle events) (second : middle.Keeps later more) :
    owned.Keeps later (events ++ more) := by
  refine ⟨second.state.trans first.state, ?_⟩
  intro dict entries read
  obtain ⟨between, read, early⟩ := first.dict dict entries read
  obtain ⟨changed, read, late⟩ := second.dict dict between read
  refine ⟨changed, read, ?_⟩
  intro key
  rw [late, early, lastStored?_append, Option.or_assoc]

theorem Keeps.silent (keeps : owned.Keeps later [])
    (silent : ∀ dict key, event.stored? dict key = none) : owned.Keeps later [event] := by
  refine ⟨keeps.state, ?_⟩
  intro dict entries read
  obtain ⟨changed, read, same⟩ := keeps.dict dict entries read
  refine ⟨changed, read, ?_⟩
  intro key
  rw [same, lastStored?_singleton, silent]
  rfl

end OwnedState

section

variable {storage next : Storage} {thread caller : ThreadId} {owned : OwnedState}

theorem ResolveStep.keeps {answer : Except UpcallError ThreadStateHandle}
    (step : ResolveStep storage caller answer next) (mine : storage.owned.find? thread = some owned) :
    next.owned.find? thread = some owned := by
  cases step with
  | owned theirs => exact mine
  | made missing lazily unused =>
    rw [Storage.find?_put, if_neg, mine]
    rintro rfl
    rw [mine] at missing
    cases missing
  | unattached missing waits => exact mine

theorem DictStep.keeps {state : Handle} {answer : Except UpcallError DictHandle}
    (step : DictStep storage state answer next) (mine : storage.owned.find? thread = some owned) :
    ∃ later, next.owned.find? thread = some later ∧ owned.Keeps later [] := by
  cases step with
  | present live named read => exact ⟨owned, mine, .refl owned⟩
  | dead none_such => exact ⟨owned, mine, .refl owned⟩
  | @made owner theirs dict live named unread unused =>
    rw [Storage.find?_put]
    split
    next same =>
      subst same
      rw [mine] at live
      cases live
      refine ⟨_, rfl, rfl, ?_⟩
      intro dict entries read
      rw [unread] at read
      cases read
    next => exact ⟨owned, mine, .refl owned⟩

theorem QueryStep.keeps {query : HostQuery} {answer : Except UpcallError Handle}
    (step : QueryStep storage caller query answer next)
    (mine : storage.owned.find? thread = some owned) :
    ∃ later, next.owned.find? thread = some later ∧ owned.Keeps later [] := by
  cases step with
  | resolve step => exact ⟨owned, step.keeps mine, .refl owned⟩
  | dictOf step => exact step.keeps mine
  | find | add | addDead | remove | assign | exhausted => exact ⟨owned, mine, .refl owned⟩

theorem StorageStep.keeps {event : HostEvent} {answer : EventAnswer}
    (step : StorageStep storage event answer next) (distinct : (storage.objects.map Prod.fst).Nodup)
    (mine : storage.owned.find? thread = some owned) (spared : event.ends thread = false) :
    ∃ later, next.owned.find? thread = some later ∧ owned.Keeps later [event] := by
  have stays (silent : ∀ dict key, event.stored? dict key = none) :
      ∃ later, storage.owned.find? thread = some later ∧ owned.Keeps later [event] :=
    ⟨owned, mine, (OwnedState.Keeps.refl owned).silent silent⟩
  cases step with
  | attached | moduleName | dictGet | dictSize | dictGetDead | dictSizeDead | registeredModule
  | refused => exact stays fun _ _ => rfl
  | newModule => exact stays fun _ _ => rfl
  | attach missing unused =>
    rw [Storage.find?_put, if_neg]
    next => exact stays fun _ _ => rfl
    next =>
      rintro rfl
      rw [mine] at missing
      cases missing
  | switch unused =>
    simp only [HostEvent.ends, decide_eq_false_iff_not] at spared
    rw [Storage.find?_put, Storage.find?_release, if_neg (Ne.symm spared), if_neg (Ne.symm spared)]
    exact stays fun _ _ => rfl
  | detach caller =>
    simp only [HostEvent.ends, decide_eq_false_iff_not] at spared
    rw [Storage.find?_release, if_neg (Ne.symm spared)]
    exact stays fun _ _ => rfl
  | exit caller =>
    simp only [HostEvent.ends, decide_eq_false_iff_not] at spared
    rw [Storage.find?_release, if_neg (Ne.symm spared)]
    exact stays fun _ _ => rfl
  | @dictSet caller owner theirs dict entries key value live read =>
    rw [Storage.find?_put]
    split
    next same =>
      subst same
      rw [mine] at live
      cases live
      refine ⟨_, rfl, rfl, ?_⟩
      intro other held same
      rw [read] at same
      cases same
      refine ⟨_, rfl, ?_⟩
      intro asked
      rw [FiniteMap.find?_insert, lastStored?_singleton]
      by_cases here : asked = key
      next => simp [HostEvent.stored?, here]
      next => simp [HostEvent.stored?, here, Ne.symm here]
    next differ =>
      refine ⟨owned, mine, rfl, ?_⟩
      intro other held same
      refine ⟨held, same, ?_⟩
      intro asked
      have apart : dict ≠ other := by
        rintro rfl
        exact differ (Storage.dict_owner_unique distinct mine live same read)
      simp [lastStored?_singleton, HostEvent.stored?, apart]
  | @dictSetDead caller dict key value dead =>
    refine ⟨owned, mine, rfl, ?_⟩
    intro other held same
    refine ⟨held, same, ?_⟩
    intro asked
    have apart : dict ≠ other := by
      rintro rfl
      exact dead held ⟨thread, owned, mine, same⟩
    simp [lastStored?_singleton, HostEvent.stored?, apart]
  | answered caller asks step =>
    obtain ⟨later, found, keeps⟩ := step.keeps mine
    exact ⟨later, found, keeps.silent fun _ _ => rfl⟩
  | current bridge step =>
    exact ⟨owned, step.keeps mine, (OwnedState.Keeps.refl owned).silent fun _ _ => rfl⟩
  | currentDict bridge resolved step =>
    obtain ⟨later, found, keeps⟩ := step.keeps (resolved.keeps mine)
    exact ⟨later, found, keeps.silent fun _ _ => rfl⟩
  | unresolved bridge step =>
    exact ⟨owned, step.keeps mine, (OwnedState.Keeps.refl owned).silent fun _ _ => rfl⟩
  | dictOf bridge caller step =>
    obtain ⟨later, found, keeps⟩ := step.keeps mine
    exact ⟨later, found, keeps.silent fun _ _ => rfl⟩

end

inductive AsksState (thread : ThreadId) : HostEvent → (ThreadStateHandle → EventAnswer) → Prop
  | current (bridge : BridgeId) :
    AsksState thread (.bridged bridge thread .current) fun state => .state (.ok state)
  | attach : AsksState thread (.call thread .attach) fun state => .host (.threadState state)
  | resolve : AsksState thread (.call thread (.invoke .resolveCurrentThreadState [])) fun state =>
    .host (.upcall (.ok state.handle))

section

variable {storage next middle : Storage} {thread : ThreadId} {state : ThreadStateHandle}

theorem ResolveStep.owns (step : ResolveStep storage thread (.ok state) next) :
    ∃ owned, next.owned.find? thread = some owned ∧ owned.state = state := by
  cases step with
  | @owned owned mine => exact ⟨owned, mine, rfl⟩
  | made missing lazily unused =>
    rw [Storage.find?_put, if_pos rfl]
    exact ⟨_, rfl, rfl⟩

theorem ResolveStep.distinct {answer : Except UpcallError ThreadStateHandle}
    (step : ResolveStep storage thread answer next)
    (distinct : (storage.objects.map Prod.fst).Nodup) : (next.objects.map Prod.fst).Nodup := by
  cases step with
  | owned mine => exact distinct
  | made missing lazily unused =>
    rw [Storage.objects_put, Storage.objects_release_of_none missing]
    exact List.nodup_cons.2 ⟨unused, distinct⟩
  | unattached missing waits => exact distinct

theorem AsksState.owns {event : HostEvent} {told : ThreadStateHandle → EventAnswer}
    (asks : AsksState thread event told) (step : StorageStep storage event (told state) next) :
    ∃ owned, next.owned.find? thread = some owned ∧ owned.state = state := by
  cases asks with
  | current bridge =>
    cases step with
    | current bridge step => exact step.owns
  | attach =>
    cases step with
    | @attached thread owned mine => exact ⟨owned, mine, rfl⟩
    | attach missing unused =>
      rw [Storage.find?_put, if_pos rfl]
      exact ⟨_, rfl, rfl⟩
  | resolve =>
    cases step with
    | answered caller asks step =>
      cases asks
      generalize same : (Except.ok state.handle : Except UpcallError Handle) = answer at step
      cases step with
      | @resolve found next step =>
        cases found with
        | error error => cases same
        | ok other =>
          have same : state = other := by
            cases state
            cases other
            cases same
            rfl
          exact same ▸ step.owns

-- The dict of a thread's state is asked for after the state, so it is the dict of that thread's.
theorem StorageStep.reads_own {bridge : BridgeId} {dict : DictHandle}
    (step : StorageStep storage (.bridged bridge thread .currentDict) (.dict (.ok dict)) next)
    (distinct : (storage.objects.map Prod.fst).Nodup) :
    ∃ owned entries, next.owned.find? thread = some owned ∧ owned.dict? = some (dict, entries) := by
  cases step with
  | currentDict bridge resolved step =>
    obtain ⟨mine, own, named⟩ := resolved.owns
    have distinct := resolved.distinct distinct
    cases step with
    | @present owner owned dict entries live same read =>
      obtain rfl : thread = owner :=
        Storage.state_owner_unique distinct own live (by rw [same, named])
      exact ⟨owned, entries, live, read⟩
    | @made owner owned dict live same unread unused =>
      obtain rfl : thread = owner :=
        Storage.state_owner_unique distinct own live (by rw [same, named])
      rw [Storage.find?_put, if_pos rfl]
      exact ⟨_, .empty, rfl, rfl⟩

end

theorem HostRun.keeps {process after : Process Host} {storage last : Storage} {thread : ThreadId}
    {owned : OwnedState} {events : List HostEvent} {answers : List EventAnswer}
    (run : HostRun process storage events answers after last)
    (mine : storage.owned.find? thread = some owned)
    (spared : ∀ event ∈ events, event.ends thread = false) :
    ∃ later, last.owned.find? thread = some later ∧ owned.Keeps later events := by
  induction run generalizing owned with
  | done represents => exact ⟨owned, mine, .refl owned⟩
  | @next process middle after storage between last event answer events answers represents played step
      rest ih =>
    obtain ⟨held, found, first⟩ :=
      step.keeps represents.objects.distinct mine (spared event List.mem_cons_self)
    obtain ⟨later, found, second⟩ :=
      ih found fun other member => spared other (List.mem_cons_of_mem event member)
    exact ⟨later, found, first.trans second⟩

namespace Host

variable {process : Process Host} {storage : Storage} {thread : ThreadId} {owned : OwnedState}

theorem Represents.asksState (represents : process.world.Represents storage)
    (mine : storage.owned.find? thread = some owned) {event : HostEvent}
    {told : ThreadStateHandle → EventAnswer} (asks : AsksState thread event told) :
    ∃ after, event.play process = .ok (told owned.state) after ∧ after.world = process.world := by
  have resolved := represents.resolve_owned mine
  rw [← invoke_of_query (HostQuery.run_decode_resolve [])] at resolved
  cases asks with
  | current bridge =>
    have evaluated : BridgeCall.currentThreadState.eval Host.runtime thread process.shared =
        .ok (.ok owned.state, process.shared) :=
      BridgeCall.eval_currentThreadState resolved
    obtain ⟨after, called, same⟩ := Process.call_of_eval evaluated bridge
    exact ⟨after, Process.map_of_ok called EventAnswer.state, congrArg Shared.world same⟩
  | attach =>
    have attached : process.world.call thread .attach = .ok (.threadState owned.state, process.world) := by
      simp only [Host.call, Host.attach, represents.threads, mine, Option.map_some,
        typed_threadState owned.state.isKind]
      rfl
    exact ⟨_, Process.map_of_ok
      (Shared.onHost_of_ok (fun host => host.call thread .attach) attached) EventAnswer.host, rfl⟩
  | resolve =>
    have invoked : process.world.call thread (.invoke .resolveCurrentThreadState []) =
        .ok (.upcall (.ok owned.state.handle), process.world) := by
      simp only [Host.call, resolved]
      rfl
    exact ⟨_, Process.map_of_ok (Shared.onHost_of_ok
      (fun host => host.call thread (.invoke .resolveCurrentThreadState [])) invoked)
      EventAnswer.host, rfl⟩

theorem Represents.asksDict (represents : process.world.Represents storage)
    (mine : storage.owned.find? thread = some owned) {dict : DictHandle}
    {entries : FiniteMap String Handle} (read : owned.dict? = some (dict, entries))
    (bridge : BridgeId) : ∃ after, (HostEvent.bridged bridge thread .currentDict).play process =
      .ok (.dict (.ok dict)) after ∧ after.world = process.world := by
  have resolved := represents.resolve_owned mine
  rw [← invoke_of_query (HostQuery.run_decode_resolve [])] at resolved
  have found := represents.dictOf_read mine read thread
  rw [← invoke_of_query (HostQuery.run_decode_dictOf [owned.state.handle])] at found
  have evaluated : BridgeCall.threadStateDict.eval Host.runtime thread process.shared =
      .ok (.ok dict, process.shared) := by
    have current : BridgeCall.currentThreadState.eval Host.runtime thread process.shared =
        .ok (.ok owned.state, process.shared) :=
      BridgeCall.eval_currentThreadState resolved
    unfold BridgeCall.threadStateDict
    rw [BridgeCall.eval_bind_of_ok current]
    exact BridgeCall.eval_dictOf found
  obtain ⟨after, called, same⟩ := Process.call_of_eval evaluated bridge
  exact ⟨after, Process.map_of_ok called EventAnswer.dict, congrArg Shared.world same⟩

end Host

structure Process.RemembersThreads (process : Process Host) : Prop where
  state : ∀ {thread : ThreadId} {first second : HostEvent} {told again : ThreadStateHandle → EventAnswer}
    {state : ThreadStateHandle} {middle : Process Host} {events : List HostEvent},
    AsksState thread first told → AsksState thread second again →
    first.play process = .ok (told state) middle → middle.StaysWithin events →
    (∀ event ∈ events, event.ends thread = false) →
    ∃ answers last after, playEvents events middle = .ok answers last ∧
      second.play last = .ok (again state) after ∧ after.world = last.world
  dict : ∀ {thread : ThreadId} {first second : BridgeId} {dict : DictHandle} {middle : Process Host}
    {events : List HostEvent},
    (HostEvent.bridged first thread .currentDict).play process = .ok (.dict (.ok dict)) middle →
    middle.StaysWithin events → (∀ event ∈ events, event.ends thread = false) →
    ∃ answers last after, playEvents events middle = .ok answers last ∧
      (HostEvent.bridged second thread .currentDict).play last = .ok (.dict (.ok dict)) after ∧
      after.world = last.world ∧
      ∀ key, last.world.dictGet? dict key =
        (lastStored? dict key events).or (middle.world.dictGet? dict key)

theorem Host.Represents.dictGet? {host : Host} {storage : Storage} {thread : ThreadId}
    {owned : OwnedState} {dict : DictHandle} {entries : FiniteMap String Handle}
    (represents : host.Represents storage) (mine : storage.owned.find? thread = some owned)
    (read : owned.dict? = some (dict, entries)) (key : String) :
    host.dictGet? dict key = entries.find? key := by
  unfold Host.dictGet?
  rw [represents.dictEntries?_iff.2 ⟨thread, owned, mine, read⟩]
  rfl

theorem Host.Represents.remembersThreads {process : Process Host} {storage : Storage}
    (represents : process.world.Represents storage) : process.RemembersThreads := by
  constructor
  next =>
    intro thread first second told again state middle events asks repeats played stays spared
    obtain ⟨answer, after, ran, kept⟩ := represents.step first
    rw [played] at ran
    cases ran
    obtain ⟨next, step, between⟩ := kept stays.within
    obtain ⟨owned, mine, rfl⟩ := asks.owns step
    obtain ⟨answers, last, storage, run⟩ := between.run stays
    obtain ⟨later, found, keeps⟩ := run.keeps mine spared
    obtain ⟨after, repeated, same⟩ := run.final.asksState found repeats
    rw [keeps.state] at repeated
    exact ⟨answers, last, after, run.played, repeated, same⟩
  next =>
    intro thread first second dict middle events played stays spared
    obtain ⟨answer, after, ran, kept⟩ := represents.step (.bridged first thread .currentDict)
    rw [played] at ran
    cases ran
    obtain ⟨next, step, between⟩ := kept stays.within
    obtain ⟨owned, entries, mine, read⟩ := step.reads_own represents.objects.distinct
    obtain ⟨answers, last, storage, run⟩ := between.run stays
    obtain ⟨later, found, keeps⟩ := run.keeps mine spared
    obtain ⟨changed, reread, contents⟩ := keeps.dict dict entries read
    obtain ⟨after, repeated, same⟩ := run.final.asksDict found reread second
    refine ⟨answers, last, after, run.played, repeated, same, ?_⟩
    intro key
    rw [run.final.dictGet? found reread, contents, between.dictGet? mine read]

-- What a thread was told of its state and its dict stays true until its state ends.
theorem thread_storage_is_isolated (explicitAttach : Bool) (process : Process Host)
    (new : process.world = .new explicitAttach) (events : List HostEvent)
    (stays : process.StaysWithin events) : ∃ answers after storage,
      playEvents events process = .ok answers after ∧
      StorageRun (.start explicitAttach) events answers storage ∧ after.RemembersThreads := by
  have start : process.world.Represents (.start explicitAttach) :=
    new ▸ Host.new_represents explicitAttach
  obtain ⟨answers, after, storage, run⟩ := start.run stays
  exact ⟨answers, after, storage, run.played, run.stored, run.final.remembersThreads⟩

-- The state of one thread takes the slot that another thread's dict left.
theorem thread_storage_is_isolated_reused_slot :
    let dict : DictHandle := ⟨⟨0x0300010000000001⟩, by decide⟩
    let process : Process Host := .start (.new false)
    let events : List HostEvent :=
      [.bridged ⟨0⟩ ⟨0⟩ .currentDict, .call ⟨1⟩ (.dictSet dict "k" ⟨7⟩), .call ⟨0⟩ (.dictGet dict "k"),
        .call ⟨2⟩ .attach, .exit ⟨0⟩, .bridged ⟨1⟩ ⟨1⟩ .current, .call ⟨1⟩ (.dictGet dict "k"),
        .call ⟨2⟩ .switch, .call ⟨1⟩ (.invoke .findModuleByIndex []), .call ⟨1⟩ .detach]
    let answers : List EventAnswer :=
      [.dict (.ok dict), .host (.flag true), .host (.entry (some ⟨7⟩)),
        .host (.threadState ⟨⟨0x0200010000000002⟩, by decide⟩), .exited true,
        .state (.ok ⟨⟨0x0200030000000001⟩, by decide⟩), .host (.entry none),
        .host (.threadState ⟨⟨0x0200030000000002⟩, by decide⟩),
        .host (.upcall (.error (.invalidArgument .findModuleByIndex (.wrongCount 1 0)))),
        .host (.flag true)]
    process.world = .new false ∧ process.StaysWithin events ∧
      ∃ after storage, playEvents events process = .ok answers after ∧
        StorageRun (.start false) events answers storage ∧ after.RemembersThreads := by
  intro dict process events answers
  have stays : process.StaysWithin events := by decide +kernel
  have computed : (Process.outcome (playEvents events process)).map Prod.fst = .ok answers := by
    decide +kernel
  obtain ⟨told, after, storage, ran, run, remembers⟩ :=
    thread_storage_is_isolated false process rfl events stays
  rw [ran] at computed
  obtain rfl : told = answers := Except.ok.inj computed
  exact ⟨rfl, stays, after, storage, ran, run, remembers⟩

end StateBridge
