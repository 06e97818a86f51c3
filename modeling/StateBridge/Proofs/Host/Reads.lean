import StateBridge.Proofs.Host.Isolation

set_option autoImplicit false

namespace StateBridge

namespace HostEvent

def readsDict (thread : ThreadId) (state : ThreadStateHandle) : HostEvent → Bool
  | .bridged _ caller .currentDict => caller = thread
  | .bridged _ _ (.dictOf asked) => asked.handle = state.handle
  | .call _ (.invoke op args) => op = .threadStateDict ∧ args = [state.handle]
  | _ => false

def dictAnswer (dict : DictHandle) : HostEvent → EventAnswer
  | .call _ _ => .host (.upcall (.ok dict.handle))
  | _ => .dict (.ok dict)

def readsDictIn (event : HostEvent) (host : Host) (thread : ThreadId) : Bool :=
  ((host.threads.find? thread).bind ThreadStateHandle.ofHandle?).any (event.readsDict thread)

end HostEvent

/-- The threads whose state has been asked for its dict. One that gets another state starts anew. -/
def Process.dictReads : Process Host → List HostEvent → (ThreadId → Bool) → ThreadId → Bool
  | _, [], read => read
  | process, event :: rest, read =>
    match event.play process with
    | .ok _ after => after.dictReads rest fun thread =>
        (read thread && !event.ends thread) || event.readsDictIn after.world thread
    | .error _ _ => read

section

variable {storage next : Storage} {thread : ThreadId} {owned : OwnedState}

theorem DictStep.stays_unread {state : Handle} {answer : Except UpcallError DictHandle}
    (step : DictStep storage state answer next) (mine : storage.owned.find? thread = some owned)
    (other : state ≠ owned.state.handle) : next.owned.find? thread = some owned := by
  cases step with
  | present | dead => exact mine
  | @made owner theirs dict live named unread unused =>
    rw [Storage.find?_put, if_neg, mine]
    rintro rfl
    rw [mine] at live
    cases live
    exact other named.symm

theorem StorageStep.stays_unread {event : HostEvent} {answer : EventAnswer}
    (step : StorageStep storage event answer next) (distinct : (storage.objects.map Prod.fst).Nodup)
    (mine : storage.owned.find? thread = some owned) (unread : owned.dict? = none)
    (spared : event.ends thread = false) (quiet : event.readsDict thread owned.state = false) :
    next.owned.find? thread = some owned := by
  cases step with
  | attached | moduleName | dictGet | dictSize | dictSetDead | dictGetDead | dictSizeDead
  | registeredModule | refused | newModule => exact mine
  | attach missing unused =>
    rw [Storage.find?_put, if_neg, mine]
    rintro rfl
    rw [mine] at missing
    cases missing
  | switch unused =>
    simp only [HostEvent.ends, decide_eq_false_iff_not] at spared
    rw [Storage.find?_put, Storage.find?_release, if_neg (Ne.symm spared), if_neg (Ne.symm spared), mine]
  | detach caller =>
    simp only [HostEvent.ends, decide_eq_false_iff_not] at spared
    rw [Storage.find?_release, if_neg (Ne.symm spared), mine]
  | exit caller =>
    simp only [HostEvent.ends, decide_eq_false_iff_not] at spared
    rw [Storage.find?_release, if_neg (Ne.symm spared), mine]
  | @dictSet caller owner theirs dict entries key value live read =>
    rw [Storage.find?_put, if_neg, mine]
    rintro rfl
    rw [mine] at live
    cases live
    rw [unread] at read
    cases read
  | @answered caller op args query answer next asks step =>
    cases step with
    | resolve step => exact step.keeps mine
    | dictOf step =>
      obtain ⟨rfl, rfl⟩ := HostQuery.read_eq_dictOf asks
      refine step.stays_unread mine ?_
      rintro rfl
      simp [HostEvent.readsDict] at quiet
    | find | add | addDead | remove | assign | exhausted => exact mine
  | current bridge step => exact step.keeps mine
  | @currentDict bridge caller state answer middle next resolved step =>
    simp only [HostEvent.readsDict, decide_eq_false_iff_not] at quiet
    refine step.stays_unread (resolved.keeps mine) ?_
    intro same
    obtain ⟨theirs, own, rfl⟩ := resolved.owns
    exact quiet (Storage.state_owner_unique (resolved.distinct distinct) own (resolved.keeps mine) same)
  | unresolved bridge step => exact step.keeps mine
  | @dictOf bridge caller state answer next step =>
    simp only [HostEvent.readsDict, decide_eq_false_iff_not] at quiet
    exact step.stays_unread mine quiet

theorem DictStep.first {answer : Except UpcallError DictHandle}
    (step : DictStep storage owned.state.handle answer next)
    (distinct : (storage.objects.map Prod.fst).Nodup)
    (mine : storage.owned.find? thread = some owned) (unread : owned.dict? = none) :
    ∃ dict, answer = .ok dict ∧ storage.Unused dict.handle ∧
      next = storage.put thread { owned with dict? := some (dict, .empty) } := by
  cases step with
  | @present owner theirs dict entries live named read =>
    obtain rfl := Storage.state_owner_unique distinct mine live named.symm
    rw [mine] at live
    cases live
    rw [unread] at read
    cases read
  | @made owner theirs dict live named fresh unused =>
    obtain rfl := Storage.state_owner_unique distinct mine live named.symm
    rw [mine] at live
    cases live
    exact ⟨dict, rfl, unused, rfl⟩
  | dead none_such => exact absurd rfl (none_such thread owned mine)

theorem StorageStep.first_dict {event : HostEvent} {answer : EventAnswer}
    (step : StorageStep storage event answer next) (distinct : (storage.objects.map Prod.fst).Nodup)
    (mine : storage.owned.find? thread = some owned) (unread : owned.dict? = none)
    (asks : event.readsDict thread owned.state = true) :
    ∃ dict, answer = event.dictAnswer dict ∧ storage.Unused dict.handle ∧
      next = storage.put thread { owned with dict? := some (dict, .empty) } := by
  cases step with
  | @answered caller op args query answer next read step =>
    simp only [HostEvent.readsDict, decide_eq_true_eq] at asks
    obtain ⟨rfl, rfl⟩ := asks
    cases read
    cases step with
    | dictOf step =>
      obtain ⟨dict, rfl, unused, rfl⟩ := step.first distinct mine unread
      exact ⟨dict, rfl, unused, rfl⟩
  | @refused caller op args error malformed =>
    simp only [HostEvent.readsDict, decide_eq_true_eq] at asks
    obtain ⟨rfl, rfl⟩ := asks
    cases malformed
  | @currentDict bridge caller state answer middle next resolved step =>
    obtain rfl : caller = thread := by simpa [HostEvent.readsDict] using asks
    cases resolved with
    | owned own =>
      rw [mine] at own
      cases own
      obtain ⟨dict, rfl, unused, rfl⟩ := step.first distinct mine unread
      exact ⟨dict, rfl, unused, rfl⟩
    | made missing =>
      rw [mine] at missing
      cases missing
  | @unresolved bridge caller error next step =>
    obtain rfl : caller = thread := by simpa [HostEvent.readsDict] using asks
    cases step with
    | unattached missing waits =>
      rw [mine] at missing
      cases missing
  | @dictOf bridge caller state answer next step =>
    have same : state.handle = owned.state.handle := by simpa [HostEvent.readsDict] using asks
    rw [same] at step
    obtain ⟨dict, rfl, unused, rfl⟩ := step.first distinct mine unread
    exact ⟨dict, rfl, unused, rfl⟩
  | _ => simp [HostEvent.readsDict] at asks

end

def Storage.hasDict (storage : Storage) (thread : ThreadId) : Bool :=
  (storage.owned.find? thread).any fun owned => owned.dict?.isSome

section

variable {storage next : Storage} {thread caller : ThreadId} {owned : OwnedState}

theorem Storage.hasDict_of_find? (mine : storage.owned.find? thread = some owned) :
    storage.hasDict thread = owned.dict?.isSome := by
  rw [hasDict, mine, Option.any_some]

theorem Storage.hasDict_of_missing (missing : storage.owned.find? thread = none) :
    storage.hasDict thread = false := by
  rw [hasDict, missing, Option.any_none]

theorem ResolveStep.unowned {answer : Except UpcallError ThreadStateHandle}
    (step : ResolveStep storage caller answer next) (missing : storage.owned.find? thread = none) :
    next.owned.find? thread = none ∨
      thread = caller ∧ ∃ state, next.owned.find? thread = some ⟨state, none⟩ := by
  cases step with
  | owned mine => exact .inl missing
  | unattached none_such waits => exact .inl missing
  | @made state none_such lazily unused =>
    rw [Storage.find?_put]
    split
    next same => exact .inr ⟨same, state, rfl⟩
    next => exact .inl missing

theorem DictStep.unowned {state : Handle} {answer : Except UpcallError DictHandle}
    (step : DictStep storage state answer next) (missing : storage.owned.find? thread = none) :
    next.owned.find? thread = none := by
  cases step with
  | present | dead => exact missing
  | made live named unread unused =>
    rw [Storage.find?_put, if_neg, missing]
    rintro rfl
    rw [missing] at live
    cases live

def Storage.readsDict (storage : Storage) (event : HostEvent) (thread : ThreadId) : Bool :=
  (storage.owned.find? thread).any fun owned => event.readsDict thread owned.state

variable {event : HostEvent} {answer : EventAnswer}

theorem Storage.readsDict_of_missing (missing : storage.owned.find? thread = none) :
    storage.readsDict event thread = false := by
  rw [readsDict, missing, Option.any_none]

theorem Storage.readsDict_of_find? (mine : storage.owned.find? thread = some owned) :
    storage.readsDict event thread = event.readsDict thread owned.state := by
  rw [readsDict, mine, Option.any_some]

theorem Storage.hasDict_eq_readsDict (unread : ∀ owned, storage.owned.find? thread = some owned →
    owned.dict? = none ∧ event.readsDict thread owned.state = false) :
    storage.hasDict thread = storage.readsDict event thread := by
  cases found : storage.owned.find? thread with
  | none => rw [hasDict_of_missing found, readsDict_of_missing found]
  | some owned =>
    obtain ⟨none, quiet⟩ := unread owned found
    rw [hasDict_of_find? found, readsDict_of_find? found, quiet, none, Option.isSome_none]

theorem ResolveStep.unread {answer : Except UpcallError ThreadStateHandle}
    (step : ResolveStep storage caller answer next) (missing : storage.owned.find? thread = none) :
    ∀ owned, next.owned.find? thread = some owned → owned.dict? = none := by
  intro owned mine
  rcases step.unowned missing with none | ⟨-, state, made⟩
  next =>
    rw [none] at mine
    cases mine
  next =>
    rw [made] at mine
    cases mine
    rfl

theorem StorageStep.hasDict_of_missing (step : StorageStep storage event answer next)
    (distinct : (storage.objects.map Prod.fst).Nodup) (missing : storage.owned.find? thread = none) :
    next.hasDict thread = next.readsDict event thread := by
  have absent (other : Storage) (same : other.owned.find? thread = none) :
      other.hasDict thread = other.readsDict event thread := by
    rw [Storage.hasDict_of_missing same, Storage.readsDict_of_missing same]
  cases step with
  | attached | moduleName | dictGet | dictSize | dictSetDead | dictGetDead | dictSizeDead
  | registeredModule | refused | newModule => exact absent _ missing
  | attach none_such unused =>
    refine Storage.hasDict_eq_readsDict fun owned mine => ⟨?_, rfl⟩
    rw [Storage.find?_put] at mine
    split at mine
    next => cases mine; rfl
    next => rw [missing] at mine; cases mine
  | switch unused =>
    refine Storage.hasDict_eq_readsDict fun owned mine => ⟨?_, rfl⟩
    rw [Storage.find?_put, Storage.find?_release] at mine
    split at mine
    next => cases mine; rfl
    next => rw [missing] at mine; cases mine
  | detach caller =>
    refine absent _ ?_
    rw [Storage.find?_release, missing, ite_self]
  | exit caller =>
    refine absent _ ?_
    rw [Storage.find?_release, missing, ite_self]
  | dictSet caller key value live read =>
    refine absent _ ?_
    rw [Storage.find?_put, if_neg, missing]
    rintro rfl
    rw [missing] at live
    cases live
  | @answered caller op args query answer next asks step =>
    cases step with
    | resolve step =>
      refine Storage.hasDict_eq_readsDict fun owned mine => ⟨step.unread missing owned mine, ?_⟩
      simp only [HostEvent.readsDict, decide_eq_false_iff_not]
      rintro ⟨rfl, rfl⟩
      cases asks
    | dictOf step => exact absent _ (step.unowned missing)
    | find | add | addDead | remove | assign | exhausted => exact absent _ missing
  | current bridge step =>
    exact Storage.hasDict_eq_readsDict fun owned mine => ⟨step.unread missing owned mine, rfl⟩
  | @currentDict bridge caller state answer middle next resolved step =>
    rcases resolved.unowned missing with none | ⟨rfl, state, made⟩
    next => exact absent _ (step.unowned none)
    next =>
      obtain ⟨owned, own, rfl⟩ := resolved.owns
      rw [made] at own
      cases own
      obtain ⟨dict, rfl, -, rfl⟩ := step.first (resolved.distinct distinct) made rfl
      simp [Storage.hasDict, Storage.readsDict, Storage.find?_put, HostEvent.readsDict]
  | unresolved bridge step =>
    cases step with
    | unattached none_such waits => exact absent _ missing
  | dictOf bridge caller step => exact absent _ (step.unowned missing)

theorem StorageStep.hasDict_of_ends (step : StorageStep storage event answer next)
    (ended : event.ends thread = true) :
    next.hasDict thread = next.readsDict event thread := by
  cases step with
  | switch unused =>
    obtain rfl : _ = thread := by simpa [HostEvent.ends] using ended
    refine Storage.hasDict_eq_readsDict fun owned mine => ⟨?_, rfl⟩
    rw [Storage.find?_put, if_pos rfl] at mine
    cases mine
    rfl
  | detach caller =>
    obtain rfl : caller = thread := by simpa [HostEvent.ends] using ended
    refine Storage.hasDict_eq_readsDict fun owned mine => ?_
    rw [Storage.find?_release, if_pos rfl] at mine
    cases mine
  | exit caller =>
    obtain rfl : caller = thread := by simpa [HostEvent.ends] using ended
    refine Storage.hasDict_eq_readsDict fun owned mine => ?_
    rw [Storage.find?_release, if_pos rfl] at mine
    cases mine
  | _ => simp [HostEvent.ends] at ended

theorem StorageStep.hasDict (step : StorageStep storage event answer next)
    (distinct : (storage.objects.map Prod.fst).Nodup) (thread : ThreadId) :
    next.hasDict thread =
      ((storage.hasDict thread && !event.ends thread) || next.readsDict event thread) := by
  cases ended : event.ends thread with
  | true => rw [step.hasDict_of_ends ended, Bool.not_true, Bool.and_false, Bool.false_or]
  | false =>
    rw [Bool.not_false, Bool.and_true]
    cases mine : storage.owned.find? thread with
    | none =>
      rw [step.hasDict_of_missing distinct mine, Storage.hasDict_of_missing mine, Bool.false_or]
    | some owned =>
      rw [Storage.hasDict_of_find? mine]
      cases read : owned.dict? with
      | some held =>
        obtain ⟨later, found, keeps⟩ := step.keeps distinct mine ended
        obtain ⟨changed, still, -⟩ := keeps.dict held.1 held.2 read
        rw [Storage.hasDict_of_find? found, still, Option.isSome_some, Option.isSome_some,
          Bool.true_or]
      | none =>
        rw [Option.isSome_none, Bool.false_or]
        cases asks : event.readsDict thread owned.state with
        | false =>
          have found := step.stays_unread distinct mine read ended asks
          rw [Storage.hasDict_of_find? found, Storage.readsDict_of_find? found, asks, read,
            Option.isSome_none]
        | true =>
          obtain ⟨dict, rfl, -, rfl⟩ := step.first_dict distinct mine read asks
          simp [Storage.hasDict, Storage.readsDict, Storage.find?_put, asks]

end

theorem Host.Represents.readsDictIn {host : Host} {storage : Storage} (represents : host.Represents storage)
    (event : HostEvent) (thread : ThreadId) :
    event.readsDictIn host thread = storage.readsDict event thread := by
  unfold HostEvent.readsDictIn Storage.readsDict
  rw [represents.threads]
  cases storage.owned.find? thread with
  | none => rfl
  | some owned => simp

namespace HostRun

variable {process after : Process Host} {storage last : Storage} {thread : ThreadId}
  {owned : OwnedState} {events : List HostEvent} {answers : List EventAnswer}

theorem stays_unread (run : HostRun process storage events answers after last)
    (mine : storage.owned.find? thread = some owned) (unread : owned.dict? = none)
    (spared : ∀ event ∈ events, event.ends thread = false ∧
      event.readsDict thread owned.state = false) : last.owned.find? thread = some owned := by
  induction run with
  | done represents => exact mine
  | @next process middle after storage between last event answer events answers represents played step
      rest ih =>
    obtain ⟨spares, quiet⟩ := spared event List.mem_cons_self
    exact ih (step.stays_unread represents.objects.distinct mine unread spares quiet)
      fun other member => spared other (List.mem_cons_of_mem event member)

-- What the events of a run have read is what the states are linked to.
theorem dictReads (run : HostRun process storage events answers after last) :
    process.dictReads events storage.hasDict = last.hasDict := by
  induction run with
  | done represents => rfl
  | @next process middle after storage between last event answer events answers represents played step
      rest ih =>
    have reads : (fun thread => (storage.hasDict thread && !event.ends thread) ||
        event.readsDictIn middle.world thread) = between.hasDict := by
      funext thread
      rw [step.hasDict represents.objects.distinct, rest.first.readsDictIn]
    rw [Process.dictReads, played]
    dsimp only
    rw [reads, ih]

end HostRun

end StateBridge
