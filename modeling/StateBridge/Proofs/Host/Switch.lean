import StateBridge.Proofs.Host.Accounting
import StateBridge.Proofs.Host.Exit
import StateBridge.Proofs.Table.Staleness

set_option autoImplicit false

namespace StateBridge

namespace HandleTable

variable {α : Type} {table middle after : HandleTable α} {first second handle taken : Handle}

def SameSlot (first second : Handle) : Prop :=
  ∃ one two : TableKey, TableKey.decode? first = some one ∧ TableKey.decode? second = some two ∧
    one.index = two.index

theorem SameSlot.eq_of_live {held other : α} (same : SameSlot first second)
    (one : table.get? first = some held) (two : table.get? second = some other) : first = second := by
  obtain ⟨key, named, decoded, read, index⟩ := same
  obtain ⟨found, again, holds⟩ := get?_eq_some_iff.1 one
  obtain ⟨known, once, keeps⟩ := get?_eq_some_iff.1 two
  rw [decoded] at again
  rw [read] at once
  cases again
  cases once
  obtain rfl := (holds.unique keeps index).1
  rw [← (TableKey.handle_of_decode? decoded).1, (TableKey.handle_of_decode? read).1]

theorem nextGeneration_twice_ne {generation : UInt16} (issued : generation ≠ 0) :
    nextGeneration (nextGeneration generation) ≠ generation := by
  intro back
  have wraps := (iterate_nextGeneration_eq_self_iff issued 2).1 back
  exact absurd wraps (by decide)

-- The slot that was freed last is taken first, two generations after its last issue.
theorem insert_takes_freed {kind : HandleKind} {value new : α}
    (removed : table.remove handle = .ok (some value, middle))
    (stored : middle.insert kind new = .ok (taken, after)) : SameSlot taken handle ∧ taken ≠ handle := by
  obtain ⟨-, missing, -⟩ | ⟨key, held, decoded, holds, -, rfl⟩ := remove_cases removed
  next => cases missing
  next =>
    obtain ⟨named, -, issued⟩ := TableKey.handle_of_decode? decoded
    obtain ⟨tabled, fresh, rfl, rfl, ⟨free, slot, inside, top, here, next, -⟩ | ⟨full, -⟩⟩ :=
      insert_cases stored
    next =>
      have index : fresh.index = key.index := (List.cons.inj top).1.symm
      have left : (table.vacate key).slots[key.index.toNat]? =
          some ⟨none, key.kind, nextGeneration key.generation⟩ := by
        rw [vacate, Array.getElem?_modify, if_pos rfl, holds]
        rfl
      have emptied : slot.generation = nextGeneration key.generation := by
        rw [← index, Array.getElem?_eq_getElem inside, here] at left
        exact congrArg Slot.generation (Option.some.inj left)
      have later : fresh.generation ≠ key.generation := by
        rw [next, emptied]
        exact nextGeneration_twice_ne issued
      constructor
      next =>
        have read := TableKey.decode?_handle tabled (next ▸ nextGeneration_ne_zero slot.generation)
        exact ⟨fresh, key, read, decoded, index⟩
      next =>
        intro same
        apply later
        rw [TableKey.handle_injective (same.trans named.symm)]
    next => cases full

end HandleTable

namespace Host

structure Switches (host : Host) (thread : ThreadId) (state : ThreadStateHandle) (after : Host) :
    Prop where
  differs : ∀ other, host.threads.find? other ≠ some state.handle
  mine : after.threads.find? thread = some state.handle
  unread : after.objects.get? state.handle = some (.threadState none)
  dead : ∀ handle, host.Owns thread handle → after.objects.get? handle = none
  threads : ∀ other, other ≠ thread → after.threads.find? other = host.threads.find? other
  others : ∀ other handle, other ≠ thread → host.Owns other handle →
    after.objects.get? handle = host.objects.get? handle
  names : ∀ module : ModuleHandle, after.moduleName? module = host.moduleName? module
  modules : ∀ index, after.registeredModule? index = host.registeredModule? index

variable {host middle after : Host} {storage : Storage} {thread : ThreadId} {owned : OwnedState}
  {state : ThreadStateHandle}

theorem newThreadState_insert {handle : Handle}
    (made : host.newThreadState thread = .ok (handle, after)) :
    host.objects.insert .threadState (.threadState none) = .ok (handle, after.objects) := by
  unfold newThreadState at made
  cases stored : host.objects.insert .threadState (.threadState none) with
  | error broken =>
    rw [stored] at made
    cases made
  | ok inserted =>
    rw [stored] at made
    cases made
    rfl

theorem Represents.liveObjects_release (represents : host.Represents storage)
    (released : middle.Represents (storage.release thread))
    (mine : storage.owned.find? thread = some owned) : middle.liveObjects < host.liveObjects := by
  have front := (Storage.objects_perm mine).length_eq
  have own : 0 < owned.objects.length := by
    rw [OwnedState.length_objects]
    omega
  rw [List.length_append] at front
  rw [liveObjects, liveObjects, represents.objects.size_eq, released.objects.size_eq]
  omega

theorem ne_dict_of_state (state : ThreadStateHandle) (dict : DictHandle) :
    state.handle ≠ dict.handle := by
  intro same
  have kinds := state.isKind
  rw [same, dict.isKind] at kinds
  cases kinds

theorem Represents.switched (represents : host.Represents storage)
    (within : host.liveObjects ≤ HandleTable.capacity)
    (mine : storage.owned.find? thread = some owned) :
    ∃ (middle : Host) (state : ThreadStateHandle) (after : Host),
      host.switch thread = .ok (state, after) ∧ middle.Represents (storage.release thread) ∧
      (storage.release thread).Unused state.handle ∧
      after.Represents ((storage.release thread).put thread ⟨state, none⟩) ∧
      HandleTable.SameSlot state.handle owned.lastFreed ∧ state.handle ≠ owned.lastFreed := by
  obtain ⟨middle, dropped, released, last⟩ := represents.drops thread
  obtain ⟨table, value, removed⟩ := last owned mine
  obtain ⟨state, after, made, kept⟩ :=
    released.newThreadState (FiniteMap.find?_erase_self storage.owned thread)
  have inserted := newThreadState_insert made
  have grown : after.liveObjects = middle.liveObjects + 1 := HandleTable.Sound.insert_live inserted
  have fewer := represents.liveObjects_release released mine
  obtain ⟨unused, represents⟩ := kept (by omega)
  refine ⟨middle, state, after, ?_, released, unused, represents,
    HandleTable.insert_takes_freed removed inserted⟩
  unfold Host.switch
  simp only [dropped, made, bind, Except.bind, typed_threadState state.isKind]
  rfl

theorem Represents.ne_of_takes_freed (represents : host.Represents storage)
    (mine : storage.owned.find? thread = some owned)
    (slot : HandleTable.SameSlot state.handle owned.lastFreed)
    (differ : state.handle ≠ owned.lastFreed) : state.handle ≠ owned.state.handle := by
  unfold OwnedState.lastFreed OwnedState.dictHandle? at slot differ
  cases read : owned.dict? with
  | none => simpa [read] using differ
  | some held =>
    obtain ⟨dict, entries⟩ := held
    simp only [read, Option.map_some, Option.getD_some] at slot
    intro same
    rw [same] at slot
    have live : host.objects.get? dict.handle = some (.dict entries) :=
      represents.get?_dict_iff.2 ⟨thread, owned, dict, mine, read, rfl⟩
    exact ne_dict_of_state owned.state dict (slot.eq_of_live (represents.get?_state mine) live)

theorem Represents.switches (represents : host.Represents storage)
    (mine : storage.owned.find? thread = some owned)
    (released : middle.Represents (storage.release thread))
    (unused : (storage.release thread).Unused state.handle)
    (switched : after.Represents ((storage.release thread).put thread ⟨state, none⟩))
    (differ : state.handle ≠ owned.state.handle) : host.Switches thread state after := by
  have reclaims := represents.reclaims released
  have own : ((storage.release thread).put thread ⟨state, none⟩).owned.find? thread =
      some ⟨state, none⟩ := by
    rw [Storage.find?_put, if_pos rfl]
  have same : ∀ handle, handle ≠ state.handle →
      after.objects.get? handle = middle.objects.get? handle := by
    intro handle apart
    ext value
    rw [switched.objects.get?_iff, released.objects.get?_iff, Storage.objects_put,
      Storage.objects_release_of_none (FiniteMap.find?_erase_self storage.owned thread)]
    simp [OwnedState.objects, apart]
  have foreign : ∀ other theirs, other ≠ thread → storage.owned.find? other = some theirs →
      ∀ handle ∈ theirs.objects.map Prod.fst, handle ≠ state.handle := by
    rintro other theirs apart live handle member rfl
    have left : (storage.release thread).owned.find? other = some theirs := by
      rw [Storage.find?_release, if_neg apart, live]
    exact unused (Storage.mem_objects_of_owned left member)
  constructor
  case differs =>
    intro other named
    rw [represents.threads, Option.map_eq_some_iff] at named
    obtain ⟨theirs, live, equal⟩ := named
    by_cases here : other = thread
    next =>
      subst here
      rw [mine] at live
      cases live
      exact differ equal.symm
    next => exact foreign other theirs here live _ (OwnedState.mem_handles_iff.2 (.inl rfl)) equal
  case mine => rw [switched.threads, own, Option.map_some]
  case unread => exact switched.get?_state own
  case dead =>
    intro handle owns
    have apart : handle ≠ state.handle := by
      rintro rfl
      obtain ⟨held, found, member⟩ := represents.owns_iff.1 owns
      rw [mine] at found
      cases found
      rcases OwnedState.mem_handles_iff.1 member with equal | dict
      next => exact differ equal
      next =>
        obtain ⟨⟨dict, entries⟩, -, equal⟩ := Option.map_eq_some_iff.1 dict
        exact ne_dict_of_state state dict equal.symm
    rw [same handle apart, reclaims.dead handle owns]
  case threads =>
    intro other apart
    rw [switched.threads, Storage.find?_put, if_neg apart, ← released.threads,
      reclaims.threads other apart]
  case others =>
    intro other handle apart owns
    obtain ⟨theirs, live, member⟩ := represents.owns_iff.1 owns
    rw [same handle (foreign other theirs apart live handle member),
      reclaims.others other handle apart owns]
  case names =>
    intro module
    rw [switched.moduleName?, represents.moduleName?]
    rfl
  case modules => exact fun index => (switched.modules index).trans (represents.modules index).symm

variable {process : Process Host}

theorem Represents.first_dict {event : HostEvent} (represents : process.world.Represents storage)
    (stays : process.StaysWithin [event]) (mine : storage.owned.find? thread = some owned)
    (unread : owned.dict? = none) (asks : event.readsDict thread owned.state = true) :
    ∃ dict after, event.play process = .ok (event.dictAnswer dict) after ∧
      storage.Unused dict.handle ∧
      after.world.Represents (storage.put thread { owned with dict? := some (dict, .empty) }) := by
  obtain ⟨answer, after, played, kept⟩ := represents.step event
  have tail := stays.2
  rw [played] at tail
  obtain ⟨next, step, final⟩ := kept tail.within
  obtain ⟨dict, rfl, unused, rfl⟩ :=
    step.first_dict represents.objects.distinct mine unread asks
  exact ⟨dict, after, played, unused, final⟩

theorem Represents.first_dict_after {churn : List HostEvent} {ask : HostEvent}
    (represents : process.world.Represents storage) (stays : process.StaysWithin (churn ++ [ask]))
    (mine : storage.owned.find? thread = some owned) (unread : owned.dict? = none)
    (spared : ∀ event ∈ churn, event.ends thread = false ∧ event.readsDict thread owned.state = false)
    (asks : ask.readsDict thread owned.state = true) : ∃ told last dict final kept,
      StateBridge.playEvents churn process = .ok told last ∧
      ask.play last = .ok (ask.dictAnswer dict) final ∧
      last.world.objects.get? dict.handle = none ∧ final.world.Represents kept ∧
      kept.owned.find? thread = some { owned with dict? := some (dict, .empty) } := by
  obtain ⟨told, last, kept, run⟩ := represents.run stays.of_append
  have found := run.stays_unread mine unread spared
  obtain ⟨dict, final, played, fresh, reading⟩ :=
    run.final.first_dict (stays.after run.played) found unread asks
  refine ⟨told, last, dict, final, _, run.played, played, run.final.get?_eq_none fresh, reading, ?_⟩
  rw [Storage.find?_put, if_pos rfl]

end Host

-- Whatever happens until the new state's dict is first asked for, it is not the one that was dropped.
theorem switch_yields_distinct_state (explicitAttach : Bool) (process : Process Host)
    (new : process.world = .new explicitAttach) (events : List HostEvent)
    (stays : process.StaysWithin events) : ∃ answers before,
      playEvents events process = .ok answers before ∧
      ∀ thread old, before.world.threads.find? thread = some old → ∃ dict? state after,
        before.world.objects.get? old = some (.threadState dict?) ∧
        (HostEvent.call thread .switch).play before = .ok (.host (.threadState state)) after ∧
        before.world.Switches thread state after.world ∧
        ∀ churn ask, after.StaysWithin (churn ++ [ask]) →
          (∀ event ∈ churn, event.ends thread = false ∧ event.readsDict thread state = false) →
          ask.readsDict thread state = true → ∃ told last dict final,
            playEvents churn after = .ok told last ∧ ask.play last = .ok (ask.dictAnswer dict) final ∧
            final.world.dictEntries? dict = some .empty ∧ dict? ≠ some dict.handle ∧
            last.world.objects.get? dict.handle = none := by
  have start : process.world.Represents (.start explicitAttach) :=
    new ▸ Host.new_represents explicitAttach
  obtain ⟨answers, before, storage, run⟩ := start.run stays
  have represents := run.final
  refine ⟨answers, before, run.played, ?_⟩
  intro thread old named
  rw [represents.threads, Option.map_eq_some_iff] at named
  obtain ⟨owned, mine, rfl⟩ := named
  have within : before.world.liveObjects ≤ HandleTable.capacity := by
    rw [← List.append_nil events] at stays
    exact stays.after run.played
  obtain ⟨middle, state, after, switched, released, unused, renewed, slot, taken⟩ :=
    represents.switched within mine
  have differ := represents.ne_of_takes_freed mine slot taken
  have called : before.world.call thread .switch = .ok (.threadState state, after) := by
    simp only [Host.call, switched]
    rfl
  refine ⟨owned.dictHandle?, state, { before with world := after }, represents.get?_state mine,
    Process.map_of_ok (Shared.onHost_of_ok (fun host => host.call thread .switch) called)
      EventAnswer.host,
    represents.switches mine released unused renewed differ, ?_⟩
  intro churn ask stays spared asks
  have later : ({ before with world := after } : Process Host).world.Represents
      ((storage.release thread).put thread ⟨state, none⟩) := renewed
  have own : ((storage.release thread).put thread ⟨state, none⟩).owned.find? thread =
      some ⟨state, none⟩ := by
    rw [Storage.find?_put, if_pos rfl]
  obtain ⟨told, last, dict, final, kept, churned, played, fresh, reading, holds⟩ :=
    later.first_dict_after stays own rfl spared asks
  refine ⟨told, last, dict, final, churned, played,
    reading.dictEntries?_iff.2 ⟨thread, _, holds, rfl⟩, ?_, fresh⟩
  -- The new state is still in the slot of the dict that was dropped, so no dict can be.
  intro same
  have live : final.world.objects.get? dict.handle = some (.dict .empty) :=
    reading.get?_dict_iff.2 ⟨thread, _, dict, holds, rfl, rfl⟩
  rw [OwnedState.lastFreed, same, Option.getD_some] at slot
  exact Host.ne_dict_of_state state dict (slot.eq_of_live (reading.get?_state holds) live)

-- The thread had read its dict, and other threads come and go before it asks again.
theorem switch_yields_distinct_state_with_dict :
    let process : Process Host := .start (.new false)
    let events : List HostEvent := [.bridged ⟨0⟩ ⟨0⟩ .currentDict, .bridged ⟨0⟩ ⟨1⟩ .currentDict]
    let churn : List HostEvent :=
      [.call ⟨1⟩ .switch, .call ⟨2⟩ .attach, .bridged ⟨1⟩ ⟨1⟩ .currentDict, .exit ⟨2⟩]
    let ask : HostEvent := .bridged ⟨0⟩ ⟨0⟩ .currentDict
    process.world = .new false ∧ process.StaysWithin events ∧
      ∃ answers before dict? state after told last dict final,
        playEvents events process = .ok answers before ∧
        before.world.objects.get? ⟨0x0200010000000000⟩ = some (.threadState dict?) ∧
        (HostEvent.call ⟨0⟩ .switch).play before = .ok (.host (.threadState state)) after ∧
        before.world.Switches ⟨0⟩ state after.world ∧ after.StaysWithin (churn ++ [ask]) ∧
        playEvents churn after = .ok told last ∧ ask.play last = .ok (ask.dictAnswer dict) final ∧
        final.world.dictEntries? dict = some .empty ∧ dict? ≠ some dict.handle := by
  intro process events churn ask
  have stays : process.StaysWithin events := by decide +kernel
  have longer : process.StaysWithin (events ++ .call ⟨0⟩ .switch :: (churn ++ [ask])) := by
    decide +kernel
  refine ⟨rfl, stays, ?_⟩
  obtain ⟨answers, before, ran, switches⟩ := switch_yields_distinct_state false process rfl events stays
  have computed : (Process.outcome (playEvents events process)).map
      (fun (_, shared) => shared.world.threads.find? ⟨0⟩) = .ok (some ⟨0x0200010000000000⟩) := by
    decide +kernel
  rw [ran] at computed
  obtain ⟨dict?, state, after, had, switched, differs, asked⟩ := switches ⟨0⟩ _ (Except.ok.inj computed)
  have tail := (longer.after ran).2
  rw [switched] at tail
  obtain ⟨told, last, dict, final, churned, read, empty, apart, -⟩ :=
    asked churn ask tail (by simp [churn, HostEvent.ends, HostEvent.readsDict]) rfl
  exact ⟨answers, before, dict?, state, after, told, last, dict, final, ran, had, switched, differs,
    tail, churned, read, empty, apart⟩

end StateBridge
