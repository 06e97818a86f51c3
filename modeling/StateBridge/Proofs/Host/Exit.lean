import StateBridge.Host.Fleet
import StateBridge.Proofs.Host.Answers

set_option autoImplicit false

namespace StateBridge

namespace Host

def Owns (host : Host) (thread : ThreadId) (handle : Handle) : Prop :=
  ∃ state, host.threads.find? thread = some state ∧
    (handle = state ∨ host.objects.get? state = some (.threadState (some handle)))

structure Reclaims (host : Host) (thread : ThreadId) (after : Host) : Prop where
  gone : after.threads.find? thread = none
  dead : ∀ handle, host.Owns thread handle → after.objects.get? handle = none
  threads : ∀ other, other ≠ thread → after.threads.find? other = host.threads.find? other
  others : ∀ other handle, other ≠ thread → host.Owns other handle →
    after.objects.get? handle = host.objects.get? handle
  names : ∀ module : ModuleHandle, after.moduleName? module = host.moduleName? module
  objects : ∀ handle, ¬ host.Owns thread handle →
    after.objects.get? handle = host.objects.get? handle
  modules : ∀ index, after.registeredModule? index = host.registeredModule? index
  highestIndex : after.highestIndex = host.highestIndex
  explicitAttach : after.explicitAttach = host.explicitAttach

variable {host after : Host} {storage : Storage} {thread other : ThreadId} {handle : Handle}

theorem Represents.contains_threads (represents : host.Represents storage) (thread : ThreadId) :
    host.threads.contains thread = storage.owned.contains thread := by
  simp only [FiniteMap.contains, represents.threads, Option.isSome_map]

theorem Represents.owns_iff (represents : host.Represents storage) : host.Owns thread handle ↔
    ∃ owned, storage.owned.find? thread = some owned ∧ handle ∈ owned.objects.map Prod.fst := by
  unfold Owns
  simp only [represents.threads, Option.map_eq_some_iff, OwnedState.mem_handles_iff]
  constructor
  next =>
    rintro ⟨state, ⟨owned, mine, rfl⟩, held⟩
    rw [represents.get?_state mine] at held
    simp only [Option.some.injEq, ManagedValue.threadState.injEq] at held
    exact ⟨owned, mine, held⟩
  next =>
    rintro ⟨owned, mine, held⟩
    refine ⟨owned.state.handle, ⟨owned, mine, rfl⟩, ?_⟩
    rw [represents.get?_state mine]
    simpa only [Option.some.injEq, ManagedValue.threadState.injEq] using held

theorem Represents.get?_eq_none (represents : host.Represents storage)
    (unused : storage.Unused handle) : host.objects.get? handle = none := by
  rw [Option.eq_none_iff_forall_ne_some]
  intro value found
  exact unused (List.mem_map_of_mem (represents.objects.get?_iff.1 found))

theorem Represents.owns_unique (represents : host.Represents storage) (theirs : host.Owns other handle)
    (mine : host.Owns thread handle) : other = thread := by
  obtain ⟨one, first, held⟩ := represents.owns_iff.1 theirs
  obtain ⟨two, second, shared⟩ := represents.owns_iff.1 mine
  exact Storage.owner_unique represents.objects.distinct first second held shared

section

variable (represents : host.Represents storage) (released : after.Represents (storage.release thread))

include represents released

theorem Represents.get?_of_owns (mine : host.Owns thread handle) :
    after.objects.get? handle = none := by
  obtain ⟨owned, mine, held⟩ := represents.owns_iff.1 mine
  exact released.get?_eq_none (Storage.not_mem_release represents.objects.distinct mine held)

theorem Represents.get?_of_not_owns (outside : ¬ host.Owns thread handle) :
    after.objects.get? handle = host.objects.get? handle := by
  ext value
  rw [represents.objects.get?_iff, released.objects.get?_iff]
  cases mine : storage.owned.find? thread with
  | none => rw [Storage.objects_release_of_none mine]
  | some owned =>
    rw [(Storage.objects_perm mine).mem_iff, List.mem_append]
    have apart : (handle, value) ∉ owned.objects := fun member =>
      outside (represents.owns_iff.2 ⟨owned, mine, List.mem_map_of_mem member⟩)
    simp only [apart, false_or]

theorem Represents.reclaims : host.Reclaims thread after where
  gone := by rw [released.threads, Storage.find?_release, if_pos rfl]; rfl
  dead := fun _ mine => represents.get?_of_owns released mine
  threads := by
    intro other differ
    rw [released.threads, represents.threads, Storage.find?_release, if_neg differ]
  others := fun _ _ differ theirs => represents.get?_of_not_owns released fun mine =>
    differ (represents.owns_unique theirs mine)
  names := by
    intro module
    rw [released.moduleName?, represents.moduleName?]
    rfl
  objects := fun _ outside => represents.get?_of_not_owns released outside
  modules := fun index => (released.modules index).trans (represents.modules index).symm
  highestIndex := released.highest.trans represents.highest.symm
  explicitAttach := released.explicitAttach.trans represents.explicitAttach.symm

end

end Host

section

variable {host : Host} {storage next : Storage} {thread other : ThreadId}

theorem ResolveStep.only_caller {answer : Except UpcallError ThreadStateHandle}
    (step : ResolveStep storage thread answer next) (has : next.owned.contains other = true) :
    storage.owned.contains other = true ∨
      other = thread ∧ storage.owned.find? thread = none ∧ storage.explicitAttach = false := by
  cases step with
  | owned mine => exact .inl has
  | unattached missing waits => exact .inl has
  | made missing lazily unused =>
    obtain same | before := Storage.contains_put_iff.1 has
    next => exact .inr ⟨same, missing, lazily⟩
    next => exact .inl before

theorem DictStep.same_threads {state : Handle} {answer : Except UpcallError DictHandle}
    (step : DictStep storage state answer next) (has : next.owned.contains other = true) :
    storage.owned.contains other = true := by
  cases step with
  | present | dead => exact has
  | made live named unread unused =>
    obtain rfl | before := Storage.contains_put_iff.1 has
    next => exact Storage.contains_of_find? live
    next => exact before

theorem StorageStep.only_caller {request : HostCall} {answer : EventAnswer}
    (step : StorageStep storage (.call thread request) answer next)
    (represents : host.Represents storage) (has : next.owned.contains other = true) :
    storage.owned.contains other = true ∨ other = thread ∧ host.attaches thread request = true := by
  have vacant (missing : storage.owned.find? thread = none) :
      host.threads.contains thread = false := by
    rw [FiniteMap.contains, represents.threads, missing]
    rfl
  cases step with
  | attached | newModule | moduleName | dictGet | dictSize | dictSetDead | dictGetDead
  | dictSizeDead | registeredModule | refused => exact .inl has
  | attach missing unused =>
    obtain same | before := Storage.contains_put_iff.1 has
    next => exact .inr ⟨same, by rw [Host.attaches, vacant missing]; rfl⟩
    next => exact .inl before
  | switch unused =>
    obtain same | before := Storage.contains_put_iff.1 has
    next => exact .inr ⟨same, rfl⟩
    next => exact .inl (Storage.contains_release_iff.1 before).2
  | detach => exact .inl (Storage.contains_release_iff.1 has).2
  | dictSet thread key value live read =>
    obtain rfl | before := Storage.contains_put_iff.1 has
    next => exact .inl (Storage.contains_of_find? live)
    next => exact .inl before
  | answered thread asks step =>
    cases step with
    | find | add | addDead | remove | assign | exhausted => exact .inl has
    | dictOf step => exact .inl (step.same_threads has)
    | resolve step =>
      obtain ⟨rfl, rfl⟩ := HostQuery.read_eq_resolve asks
      obtain before | ⟨same, missing, lazily⟩ := step.only_caller has
      next => exact .inl before
      next =>
        refine .inr ⟨same, ?_⟩
        rw [Host.attaches, vacant missing, represents.explicitAttach, lazily]
        rfl

theorem Host.Represents.called (represents : host.Represents storage) (thread : ThreadId)
    (request : HostCall) : ∃ answer after, host.call thread request = .ok (answer, after) ∧
      (after.liveObjects ≤ HandleTable.capacity → (∃ next, after.Represents next) ∧
        ∀ owner, after.threads.contains owner = true → host.threads.contains owner = true ∨
          owner = thread ∧ host.attaches thread request = true) := by
  obtain ⟨answer, after, called, kept⟩ := represents.call thread request
  refine ⟨answer, after, called, ?_⟩
  intro within
  obtain ⟨next, step, final⟩ := kept within
  refine ⟨⟨next, final⟩, ?_⟩
  intro owner has
  rw [final.contains_threads] at has
  rw [represents.contains_threads]
  exact step.only_caller represents has

end

end StateBridge
