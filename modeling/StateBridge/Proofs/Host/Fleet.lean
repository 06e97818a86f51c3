import StateBridge.Proofs.Host.Exit

set_option autoImplicit false

namespace StateBridge

inductive FleetEvent where
  | start (runtime : RuntimeId) (explicitAttach : Bool)
  | discard (runtime : RuntimeId)
  | call (runtime : RuntimeId) (thread : ThreadId) (request : HostCall)
  | exit (thread : ThreadId)

def FleetEvent.play : FleetEvent → Fleet → Except Fault Fleet
  | .start runtime explicitAttach, fleet => return fleet.start runtime (.new explicitAttach)
  | .discard runtime, fleet => return fleet.discard runtime
  | .call runtime thread request, fleet => do
    let (_, after) ← fleet.call runtime thread request
    return after
  | .exit thread, fleet => fleet.exit thread

def playHistory : List FleetEvent → Fleet → Except Fault Fleet
  | [], fleet => return fleet
  | event :: rest, fleet => do playHistory rest (← event.play fleet)

namespace Fleet

def Within (fleet : Fleet) : Prop :=
  ∀ entry ∈ fleet.hosts.entries, entry.2.liveObjects ≤ HandleTable.capacity

instance decidableWithin (fleet : Fleet) : Decidable fleet.Within :=
  inferInstanceAs (Decidable (∀ entry ∈ fleet.hosts.entries,
    entry.2.liveObjects ≤ HandleTable.capacity))

def StaysWithin : Fleet → List FleetEvent → Prop
  | fleet, [] => fleet.Within
  | fleet, event :: rest =>
    fleet.Within ∧
      match event.play fleet with
      | .ok after => after.StaysWithin rest
      | .error _ => True

instance decidableStaysWithin :
    (fleet : Fleet) → (events : List FleetEvent) → Decidable (fleet.StaysWithin events)
  | fleet, [] => decidableWithin fleet
  | fleet, event :: rest =>
    @instDecidableAnd _ _ (decidableWithin fleet) <|
      match event.play fleet with
      | .ok after => decidableStaysWithin after rest
      | .error _ => .isTrue trivial

theorem StaysWithin.within {fleet : Fleet} {events : List FleetEvent}
    (stays : fleet.StaysWithin events) : fleet.Within := by
  cases events with
  | nil => exact stays
  | cons event rest => exact stays.1

variable {fleet after : Fleet} {runtime : RuntimeId} {thread : ThreadId} {host : Host}

theorem Within.of_live (within : fleet.Within) (live : fleet.host? runtime = some host) :
    host.liveObjects ≤ HandleTable.capacity :=
  within (runtime, host) (FiniteMap.mem_entries_iff.2 live)

theorem host?_start (fleet : Fleet) (runtime : RuntimeId) (host : Host) (other : RuntimeId) :
    (fleet.start runtime host).host? other = if other = runtime then some host else fleet.host? other :=
  FiniteMap.find?_insert fleet.hosts runtime other host

theorem host?_discard (fleet : Fleet) (runtime other : RuntimeId) :
    (fleet.discard runtime).host? other = if other = runtime then none else fleet.host? other :=
  FiniteMap.find?_erase fleet.hosts runtime other

theorem guard_watch_of_ne (fleet : Fleet) (runtime : RuntimeId) {other : ThreadId}
    (differ : other ≠ thread) : (fleet.watch thread runtime).guard other = fleet.guard other := by
  simp only [guard, watch, FiniteMap.find?_insert_of_ne _ _ differ]

theorem guard_watch (fleet : Fleet) (runtime : RuntimeId) (thread : ThreadId) :
    let live := (fleet.guard thread).filter fleet.hosts.contains
    (fleet.watch thread runtime).guard thread =
      if runtime ∈ live then live else live ++ [runtime] := by
  simp only [guard, watch, FiniteMap.find?_insert_self, Option.getD_some]

theorem mem_guard_watch (fleet : Fleet) (runtime other : RuntimeId) (thread : ThreadId) :
    other ∈ (fleet.watch thread runtime).guard thread ↔
      other = runtime ∨ other ∈ fleet.guard thread ∧ fleet.hosts.contains other = true := by
  rw [← List.mem_filter, guard_watch]
  by_cases listed : runtime ∈ (fleet.guard thread).filter fleet.hosts.contains
  next =>
    rw [if_pos listed, iff_or_self]
    rintro rfl
    exact listed
  next => rw [if_neg listed, List.mem_append, List.mem_singleton, or_comm]

theorem nodup_guard_watch (nodup : (fleet.guard thread).Nodup) (runtime : RuntimeId) :
    ((fleet.watch thread runtime).guard thread).Nodup := by
  have live := nodup.filter fleet.hosts.contains
  rw [guard_watch]
  by_cases listed : runtime ∈ (fleet.guard thread).filter fleet.hosts.contains
  next =>
    rw [if_pos listed]
    exact live
  next =>
    rw [if_neg listed, List.nodup_append]
    refine ⟨live, List.nodup_singleton runtime, ?_⟩
    rintro known member other single rfl
    rw [List.mem_singleton] at single
    exact listed (single ▸ member)

theorem live_start {other : RuntimeId} {found : Host}
    (live : (fleet.start runtime host).host? other = some found) :
    (other = runtime ∧ found = host) ∨ fleet.host? other = some found := by
  rw [host?_start] at live
  split at live
  next same => exact .inl ⟨same, (Option.some.inj live).symm⟩
  next => exact .inr live

def Represented (fleet : Fleet) : Prop :=
  ∀ runtime host, fleet.host? runtime = some host → ∃ storage, host.Represents storage

theorem Represented.start (represented : fleet.Represented) {storage : Storage}
    (represents : host.Represents storage) (runtime : RuntimeId) :
    (fleet.start runtime host).Represented := by
  intro other found live
  obtain ⟨-, rfl⟩ | live := live_start live
  next => exact ⟨storage, represents⟩
  next => exact represented other found live

def Covers (fleet : Fleet) (runtime : RuntimeId) (thread : ThreadId) : Prop :=
  ∀ host, fleet.host? runtime = some host → host.threads.contains thread = true →
    runtime ∈ fleet.guard thread

structure Sound (fleet : Fleet) : Prop where
  hosts : fleet.Represented
  covers : ∀ runtime thread, fleet.Covers runtime thread
  guards : ∀ thread, (fleet.guard thread).Nodup

theorem empty_sound : empty.Sound := by
  refine ⟨?_, ?_, fun _ => List.nodup_nil⟩
  next =>
    intro runtime host live
    cases live
  next =>
    intro runtime thread host live
    cases live

theorem Sound.discard (sound : fleet.Sound) (runtime : RuntimeId) : (fleet.discard runtime).Sound := by
  have before : ∀ other host, (fleet.discard runtime).host? other = some host →
      fleet.host? other = some host := by
    intro other host live
    rw [host?_discard] at live
    split at live
    next => cases live
    next => exact live
  refine ⟨?_, ?_, sound.guards⟩
  next => exact fun other host live => sound.hosts other host (before other host live)
  next => exact fun other thread host live => sound.covers other thread host (before other host live)

theorem Sound.start (sound : fleet.Sound) {host : Host} {storage : Storage}
    (represents : host.Represents storage)
    (listed : ∀ thread, host.threads.contains thread = true → runtime ∈ fleet.guard thread) :
    (fleet.start runtime host).Sound := by
  refine ⟨sound.hosts.start represents runtime, ?_, sound.guards⟩
  intro other thread found live has
  obtain ⟨rfl, rfl⟩ | live := live_start live
  next => exact listed thread has
  next => exact sound.covers other thread found live has

-- Before the thread's guard is told, the host with the new state is the only one that it may lack.
theorem watch_sound (hosts : fleet.Represented) (guards : ∀ thread, (fleet.guard thread).Nodup)
    (covers : ∀ other owner, (other = runtime → owner ≠ thread) → fleet.Covers other owner) :
    (fleet.watch thread runtime).Sound := by
  refine ⟨hosts, ?_, ?_⟩
  next =>
    intro other owner found live has
    change fleet.host? other = some found at live
    by_cases mine : owner = thread
    next =>
      subst mine
      rw [mem_guard_watch]
      by_cases here : other = runtime
      next => exact .inl here
      next =>
        have listed := covers other owner (fun same => absurd same here) found live has
        refine .inr ⟨listed, ?_⟩
        rw [FiniteMap.contains]
        change (fleet.host? other).isSome = true
        rw [live]
        rfl
    next =>
      rw [guard_watch_of_ne fleet runtime mine]
      exact covers other owner (fun _ => mine) found live has
  next =>
    intro owner
    by_cases mine : owner = thread
    next => exact mine ▸ nodup_guard_watch (guards thread) runtime
    next =>
      rw [guard_watch_of_ne fleet runtime mine]
      exact guards owner

theorem Sound.call (sound : fleet.Sound) (runtime : RuntimeId) (thread : ThreadId)
    (request : HostCall) : ∃ answer? after, fleet.call runtime thread request = .ok (answer?, after) ∧
      (after.Within → after.Sound) := by
  unfold Fleet.call
  cases live : fleet.host? runtime with
  | none => exact ⟨none, fleet, rfl, fun _ => sound⟩
  | some host =>
    obtain ⟨storage, represents⟩ := sound.hosts runtime host live
    obtain ⟨answer, world, called, kept⟩ := represents.called thread request
    have started : (fleet.start runtime world).host? runtime = some world := by
      rw [host?_start, if_pos rfl]
    refine ⟨some answer, _, by simp only [called]; rfl, ?_⟩
    cases attaches : host.attaches thread request with
    | false =>
      intro room
      obtain ⟨⟨next, after⟩, threads⟩ := kept (room.of_live started)
      refine sound.start after ?_
      intro owner has
      have before : host.threads.contains owner = true := by
        simpa only [attaches, Bool.false_eq_true, and_false, or_false] using threads owner has
      exact sound.covers runtime owner host live before
    | true =>
      intro room
      obtain ⟨⟨next, after⟩, threads⟩ := kept (room.of_live started)
      refine watch_sound (sound.hosts.start after runtime) sound.guards ?_
      intro other owner apart found alive has
      obtain ⟨rfl, rfl⟩ | alive := live_start alive
      next =>
        obtain before | ⟨new, -⟩ := threads owner has
        next => exact sound.covers other owner host live before
        next => exact absurd new (apart rfl)
      next => exact sound.covers other owner found alive has

def Each (fleet after : Fleet) (related : RuntimeId → Host → Host → Prop) : Prop :=
  ∀ runtime, (fleet.host? runtime = none → after.host? runtime = none) ∧
    ∀ host, fleet.host? runtime = some host →
      ∃ last, after.host? runtime = some last ∧ related runtime host last

def Drops (thread : ThreadId) (host last : Host) : Prop :=
  ∃ had, host.dropThreadState thread = .ok (had, last)

theorem drops_of_none {last : Host} (missing : last.threads.find? thread = none) :
    Drops thread last last := by
  refine ⟨false, ?_⟩
  unfold Host.dropThreadState
  simp only [missing]
  rfl

theorem Drops.represents {host last : Host} {storage : Storage} (drops : Drops thread host last)
    (represents : host.Represents storage) : last.Represents (storage.release thread) := by
  obtain ⟨had, dropped⟩ := drops
  obtain ⟨world, again, released⟩ := represents.dropThreadState thread
  rw [dropped] at again
  cases again
  exact released

theorem dropIn_ok (thread : ThreadId) {listed : List RuntimeId} (once : listed.Nodup)
    (hosts : fleet.Represented) : ∃ after, dropIn thread listed fleet = .ok after ∧
      after.guards = fleet.guards ∧ fleet.Each after fun runtime host last =>
        if runtime ∈ listed then Drops thread host last else last = host := by
  induction listed generalizing fleet with
  | nil => exact ⟨fleet, rfl, rfl, fun runtime => ⟨id, fun host live => ⟨host, live, by simp⟩⟩⟩
  | cons first rest ih =>
    obtain ⟨outside, once⟩ := List.nodup_cons.1 once
    unfold dropIn
    cases live : fleet.host? first with
    | none =>
      obtain ⟨after, dropped, guards, each⟩ := ih once hosts
      refine ⟨after, dropped, guards, fun runtime => ⟨(each runtime).1, ?_⟩⟩
      intro host alive
      obtain ⟨last, found, step⟩ := (each runtime).2 host alive
      have differ : runtime ≠ first := by
        rintro rfl
        rw [live] at alive
        cases alive
      exact ⟨last, found, by simpa only [List.mem_cons, differ, false_or] using step⟩
    | some host =>
      obtain ⟨storage, represents⟩ := hosts first host live
      obtain ⟨world, drops, released⟩ := represents.dropThreadState thread
      obtain ⟨after, dropped, guards, each⟩ := ih once (hosts.start released first)
      refine ⟨after, by simp only [drops]; exact dropped, guards, ?_⟩
      intro runtime
      have reached := each runtime
      rw [host?_start] at reached
      by_cases here : runtime = first
      next =>
        -- The rest of the list spares the host, which is not in it again.
        subst here
        rw [if_pos rfl] at reached
        obtain ⟨last, found, step⟩ := reached.2 world rfl
        rw [if_neg outside] at step
        subst step
        rw [live]
        refine ⟨fun missing => absurd missing (by simp), ?_⟩
        intro other same
        cases same
        exact ⟨last, found, (if_pos List.mem_cons_self).mpr ⟨_, drops⟩⟩
      next =>
        rw [if_neg here] at reached
        simpa only [List.mem_cons, here, false_or] using reached

theorem Sound.exit (sound : fleet.Sound) (thread : ThreadId) : ∃ after,
    fleet.exit thread = .ok after ∧ after.guards = fleet.guards.erase thread ∧
      fleet.Each after fun _ => Drops thread := by
  obtain ⟨after, dropped, guards, each⟩ := dropIn_ok thread (sound.guards thread) sound.hosts
  refine ⟨{ after with guards := after.guards.erase thread }, ?_, by rw [guards],
    fun runtime => ⟨(each runtime).1, ?_⟩⟩
  next =>
    unfold Fleet.exit
    simp only [dropped]
    rfl
  next =>
    intro host live
    obtain ⟨last, found, step⟩ := (each runtime).2 host live
    refine ⟨last, found, ?_⟩
    by_cases listed : runtime ∈ fleet.guard thread
    next => rwa [if_pos listed] at step
    next =>
      rw [if_neg listed] at step
      subst step
      apply drops_of_none
      rw [Option.eq_none_iff_forall_ne_some]
      intro state has
      exact listed (sound.covers runtime thread last live (by rw [FiniteMap.contains, has]; rfl))

theorem Sound.exited (sound : fleet.Sound) {thread : ThreadId}
    (guards : after.guards = fleet.guards.erase thread)
    (each : fleet.Each after fun _ => Drops thread) : after.Sound := by
  have guard : ∀ owner, after.guard owner = if owner = thread then [] else fleet.guard owner := by
    intro owner
    simp only [Fleet.guard, guards, FiniteMap.find?_erase]
    split <;> rfl
  have released : ∀ runtime last, after.host? runtime = some last →
      ∃ host storage, fleet.host? runtime = some host ∧ host.Represents storage ∧
        last.Represents (storage.release thread) := by
    intro runtime last live
    cases before : fleet.host? runtime with
    | none =>
      rw [(each runtime).1 before] at live
      cases live
    | some host =>
      obtain ⟨storage, represents⟩ := sound.hosts runtime host before
      obtain ⟨dropped, found, drops⟩ := (each runtime).2 host before
      rw [live] at found
      cases found
      exact ⟨host, storage, rfl, represents, drops.represents represents⟩
  refine ⟨?_, ?_, ?_⟩
  next =>
    intro runtime last live
    obtain ⟨host, storage, -, -, represents⟩ := released runtime last live
    exact ⟨_, represents⟩
  next =>
    intro runtime owner last live has
    obtain ⟨host, storage, before, represents, after⟩ := released runtime last live
    rw [after.contains_threads, Storage.contains_release_iff, ← represents.contains_threads] at has
    rw [guard, if_neg has.1]
    exact sound.covers runtime owner host before has.2
  next =>
    intro owner
    rw [guard]
    split
    next => exact List.nodup_nil
    next => exact sound.guards owner

theorem Sound.step (sound : fleet.Sound) (event : FleetEvent) :
    ∃ after, event.play fleet = .ok after ∧ (after.Within → after.Sound) := by
  cases event with
  | start runtime explicitAttach =>
    refine ⟨_, rfl, fun _ => sound.start (Host.new_represents explicitAttach) ?_⟩
    intro thread has
    cases has
  | discard runtime => exact ⟨_, rfl, fun _ => sound.discard runtime⟩
  | call runtime thread request =>
    obtain ⟨answer?, after, called, kept⟩ := sound.call runtime thread request
    exact ⟨after, by simp only [FleetEvent.play, called]; rfl, kept⟩
  | exit thread =>
    obtain ⟨after, exited, guards, each⟩ := sound.exit thread
    exact ⟨after, exited, fun _ => sound.exited guards each⟩

theorem Sound.playHistory {events : List FleetEvent} (sound : fleet.Sound)
    (stays : fleet.StaysWithin events) :
    ∃ after, StateBridge.playHistory events fleet = .ok after ∧ after.Sound := by
  induction events generalizing fleet with
  | nil => exact ⟨fleet, rfl, sound⟩
  | cons event rest ih =>
    obtain ⟨middle, played, kept⟩ := sound.step event
    have tail := stays.2
    rw [played] at tail
    obtain ⟨after, ran, last⟩ := ih (kept tail.within) tail
    refine ⟨after, ?_, last⟩
    simp only [StateBridge.playHistory, played]
    exact ran

end Fleet

-- When a thread ends, each host that is still there gives up what the thread owned in it and nothing else.
theorem thread_exit_reclaims (events : List FleetEvent) (stays : Fleet.empty.StaysWithin events)
    (thread : ThreadId) : ∃ fleet after, playHistory events .empty = .ok fleet ∧
      fleet.exit thread = .ok after ∧
      (∀ runtime, fleet.host? runtime = none → after.host? runtime = none) ∧
      ∀ runtime host, fleet.host? runtime = some host →
        (host.threads.contains thread = true → (fleet.guard thread).count runtime = 1) ∧
        ∃ last, after.host? runtime = some last ∧ host.Reclaims thread last := by
  obtain ⟨fleet, played, sound⟩ := Fleet.empty_sound.playHistory stays
  obtain ⟨after, exited, -, each⟩ := sound.exit thread
  refine ⟨fleet, after, played, exited, fun runtime => (each runtime).1, ?_⟩
  intro runtime host live
  constructor
  next =>
    intro has
    exact List.count_eq_one_of_mem (sound.guards thread) (sound.covers runtime thread host live has)
  next =>
    obtain ⟨storage, represents⟩ := sound.hosts runtime host live
    obtain ⟨last, found, drops⟩ := (each runtime).2 host live
    exact ⟨last, found, represents.reclaims (drops.represents represents)⟩

-- A thread with states in three hosts, one of which is let go, detaches and attaches in another.
theorem thread_exit_reclaims_of_two_hosts :
    let events : List FleetEvent :=
      [.start ⟨0⟩ false, .start ⟨1⟩ true, .call ⟨0⟩ ⟨0⟩ (.invoke .resolveCurrentThreadState []),
        .call ⟨1⟩ ⟨0⟩ .attach, .call ⟨1⟩ ⟨1⟩ .switch, .call ⟨1⟩ ⟨0⟩ .detach, .discard ⟨0⟩,
        .call ⟨0⟩ ⟨0⟩ .attach, .call ⟨1⟩ ⟨0⟩ .switch, .call ⟨1⟩ ⟨1⟩ (.newModule "m"), .start ⟨2⟩ false,
        .call ⟨2⟩ ⟨0⟩ .switch, .call ⟨2⟩ ⟨1⟩ .attach]
    let live (fleet : Fleet) : List (Option Nat) :=
      [⟨0⟩, ⟨1⟩, ⟨2⟩].map fun runtime => (fleet.host? runtime).map Host.liveObjects
    Fleet.empty.StaysWithin events ∧ ∃ fleet after, playHistory events .empty = .ok fleet ∧
      fleet.guard ⟨0⟩ = [⟨1⟩, ⟨2⟩] ∧ live fleet = [none, some 3, some 2] ∧
      fleet.exit ⟨0⟩ = .ok after ∧ live after = [none, some 2, some 1] ∧
      ∀ runtime host, fleet.host? runtime = some host →
        ∃ last, after.host? runtime = some last ∧ host.Reclaims ⟨0⟩ last := by
  intro events live
  have stays : Fleet.empty.StaysWithin events := by decide +kernel
  have computed : (do
      let fleet ← playHistory events .empty
      let after ← fleet.exit ⟨0⟩
      return (fleet.guard ⟨0⟩, live fleet, live after)) =
        .ok ([⟨1⟩, ⟨2⟩], [none, some 3, some 2], [none, some 2, some 1]) := by
    decide +kernel
  obtain ⟨fleet, after, played, exited, -, each⟩ := thread_exit_reclaims events stays ⟨0⟩
  simp only [played, exited, bind, Except.bind] at computed
  obtain ⟨guard, counts⟩ := Prod.mk.inj (Except.ok.inj computed)
  obtain ⟨early, late⟩ := Prod.mk.inj counts
  exact ⟨stays, fleet, after, played, guard, early, exited, late,
    fun runtime host live => (each runtime host live).2⟩

end StateBridge
