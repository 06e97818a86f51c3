import Mathlib.Data.Set.Finite.Basic
import StateBridge.Proofs.Native.Aborts

set_option autoImplicit false

namespace StateBridge

structure Addition where
  bridge : BridgeId
  thread : ThreadId
  module : ModuleHandle
  definition : DefinitionId

structure Lookup where
  bridge : BridgeId
  thread : ThreadId
  definition : DefinitionId

def Lookup.event (lookup : Lookup) : Event :=
  .modules lookup.bridge lookup.thread (.find lookup.definition)

namespace Addition

def event (addition : Addition) : Event :=
  .modules addition.bridge addition.thread (.add addition.module addition.definition)

def index? (definition : DefinitionId → ModuleDefinition) (addition : Addition) :
    Option ModuleIndex :=
  (definition addition.definition).index?

structure Apart (definition : DefinitionId → ModuleDefinition) (first second : Addition) : Prop where
  definitions : first.definition ≠ second.definition
  modules : first.module ≠ second.module
  indices : first.index? definition = second.index? definition → first.index? definition = none

structure Suited (definition : DefinitionId → ModuleDefinition) (live : ModuleHandle → Prop)
    (additions : List Addition) : Prop where
  single : ∀ addition ∈ additions, (definition addition.definition).hasSlots = false
  fits : ∀ addition ∈ additions, ∀ index ∈ addition.index? definition, index.Fits
  live : ∀ addition ∈ additions, live addition.module
  apart : additions.Pairwise (Apart definition)

def succeeded (additions : List Addition) (results : List (Except ApiError Unit)) : List Addition :=
  ((additions.zip results).filter fun pair => pair.2.isOk).map Prod.fst

-- A later definition that had its index from the start takes it from one that was given the same.
def Takes (before after : DefinitionId → ModuleDefinition) (later earlier : Addition) : Prop :=
  earlier.index? before = none ∧ later.index? before = earlier.index? after

section

variable (definition : DefinitionId → ModuleDefinition)

theorem apart_iff {first second : Addition} : Apart definition first second ↔
    first.definition ≠ second.definition ∧ first.module ≠ second.module ∧
      (first.index? definition = second.index? definition → first.index? definition = none) :=
  ⟨fun ⟨definitions, modules, indices⟩ => ⟨definitions, modules, indices⟩,
    fun ⟨definitions, modules, indices⟩ => ⟨definitions, modules, indices⟩⟩

instance (first second : Addition) : Decidable (Apart definition first second) :=
  decidable_of_iff' _ (apart_iff definition)

theorem suited_iff {live : ModuleHandle → Prop} {additions : List Addition} :
    Suited definition live additions ↔
      (∀ addition ∈ additions, (definition addition.definition).hasSlots = false) ∧
      (∀ addition ∈ additions, ∀ index ∈ addition.index? definition, index.Fits) ∧
      (∀ addition ∈ additions, live addition.module) ∧ additions.Pairwise (Apart definition) :=
  ⟨fun ⟨single, fits, live, apart⟩ => ⟨single, fits, live, apart⟩,
    fun ⟨single, fits, live, apart⟩ => ⟨single, fits, live, apart⟩⟩

instance (live : ModuleHandle → Prop) [DecidablePred live] (additions : List Addition) :
    Decidable (Suited definition live additions) :=
  decidable_of_iff' _ (suited_iff definition)

end

variable {definition : DefinitionId → ModuleDefinition} {live : ModuleHandle → Prop}
  {additions fewer : List Addition}

theorem Suited.sublist (suited : Suited definition live additions) (sublist : fewer.Sublist additions) :
    Suited definition live fewer where
  single addition member := suited.single addition (sublist.subset member)
  fits addition member := suited.fits addition (sublist.subset member)
  live addition member := suited.live addition (sublist.subset member)
  apart := suited.apart.sublist sublist

end Addition

namespace ModuleMap

variable {map given : ModuleMap} {module : ModuleHandle} {definition : DefinitionId} {index : ModuleIndex}

theorem init_of_index? (assigned : (map.definition definition).index? = some index) :
    map.init definition = (.ok index, map) := by
  simp only [init, assigned]

theorem init_of_fits (unassigned : (map.definition definition).index? = none)
    (next : index.value = map.highest + 1) (fits : index.Fits) :
    map.init definition = (.ok index, { map with
      definition := Function.update map.definition definition
        { map.definition definition with rawIndex := index.value },
      highest := index.value }) := by
  obtain ⟨value, positive⟩ := index
  cases next
  simp only [init, unassigned]
  exact if_pos fits

theorem init_of_not_fits (unassigned : (map.definition definition).index? = none)
    (wide : ¬ ModuleIndex.Fits ⟨map.highest + 1, Nat.succ_pos _⟩) :
    map.init definition = (.error .indexSpaceExhausted, map) := by
  simp only [init, unassigned]
  exact if_neg wide

theorem add_of_init (single : (map.definition definition).hasSlots = false)
    (initialised : map.init definition = (.ok index, given)) (fits : index.Fits)
    (live : module ∈ given.live) (other : given.entry index ≠ some module) :
    map.add module definition = (.ok (), given.setEntry index (some module)) := by
  simp [add, single, initialised, place, fits, live, other]

theorem add_of_error {error : UpcallError} (single : (map.definition definition).hasSlots = false)
    (initialised : map.init definition = (.error error, given)) :
    map.add module definition = (.error (.upcall error), given) := by
  simp [add, single, initialised]

theorem find_of_index? (single : (map.definition definition).hasSlots = false)
    (assigned : (map.definition definition).index? = some index) (fits : index.Fits) :
    (map.find definition).1 = map.entry index := by
  simp [find, single, assigned, findByIndex, fits]

theorem find_find (map : ModuleMap) (definition other : DefinitionId) :
    ((map.find definition).2.find other).1 = (map.find other).1 := by
  have spared : (map.find definition).2.entry = map.entry ∧
      (map.find definition).2.definition = map.definition := by
    simp only [find, findByIndex]
    split
    next => exact ⟨rfl, rfl⟩
    next =>
      split
      next => split <;> exact ⟨rfl, rfl⟩
      next => exact ⟨rfl, rfl⟩
  generalize (map.find definition).2 = next at spared
  simp only [find, findByIndex, spared.1, spared.2]
  split
  next => rfl
  next =>
    split
    next => split <;> rfl
    next => rfl

end ModuleMap

namespace Addition

variable {definition : DefinitionId → ModuleDefinition} {map given : ModuleMap}
  {placed rest : List Addition} {addition : Addition} {index : ModuleIndex}

structure Ledger (definition : DefinitionId → ModuleDefinition) (placed : List Addition)
    (map : ModuleMap) : Prop where
  single : ∀ addition ∈ placed, (map.definition addition.definition).hasSlots = false
  index : ∀ addition ∈ placed, ∃ index : ModuleIndex, addition.index? map.definition = some index ∧
    index.Fits ∧ index.value ≤ map.highest ∧
      (addition.index? definition = none ∨ addition.index? definition = some index)
  spared : ∀ id, (∀ addition ∈ placed, addition.definition ≠ id) → map.definition id = definition id
  entry : ∀ index module, map.entry index = some module → ∃ addition ∈ placed,
    addition.module = module ∧ addition.index? map.definition = some index
  latest : ∀ first addition later index, placed = first ++ addition :: later →
    addition.index? map.definition = some index →
    (∀ other ∈ later, other.index? map.definition ≠ some index) →
      map.entry index = some addition.module
  taken : placed.Pairwise fun earlier later =>
    earlier.index? map.definition = later.index? map.definition →
      Takes definition map.definition later earlier

theorem Ledger.start (map : ModuleMap) (empty : ∀ index, map.entry index = none) :
    Ledger map.definition [] map where
  single := by simp
  index := by simp
  spared _ _ := rfl
  entry := by simp [empty]
  latest := by simp
  taken := .nil

theorem Ledger.place (ledger : Ledger definition placed map)
    (apart : ∀ other ∈ placed, other.Apart definition addition)
    (entry : given.entry = map.entry) (highest : map.highest ≤ given.highest)
    (others : ∀ id, id ≠ addition.definition → given.definition id = map.definition id)
    (single : (given.definition addition.definition).hasSlots = false)
    (assigned : addition.index? given.definition = some index) (fits : index.Fits)
    (fresh : addition.index? definition = none ∧ map.highest < index.value ∨
      addition.index? definition = some index) :
    Ledger definition (placed ++ [addition]) (given.setEntry index (some addition.module)) := by
  have kept {other : Addition} (member : other ∈ placed) :
      given.definition other.definition = map.definition other.definition :=
    others other.definition (apart other member).definitions
  have same {other : Addition} (member : other ∈ placed) :
      other.index? given.definition = other.index? map.definition :=
    congrArg ModuleDefinition.index? (kept member)
  constructor
  case single =>
    intro other member
    rcases List.mem_append.1 member with before | now
    next => exact (congrArg ModuleDefinition.hasSlots (kept before)).trans (ledger.single other before)
    next =>
      rw [List.mem_singleton.1 now]
      exact single
  case index =>
    intro other member
    rcases List.mem_append.1 member with before | now
    next =>
      obtain ⟨found, carried, within, below, own⟩ := ledger.index other before
      refine ⟨found, (same before).trans carried, within, ?_, own⟩
      exact (below.trans highest).trans (le_max_left _ _)
    next =>
      rw [List.mem_singleton.1 now]
      exact ⟨index, assigned, fits, le_max_right _ _, fresh.imp_left And.left⟩
  case spared =>
    intro id spares
    have other : id ≠ addition.definition := (spares addition (by simp)).symm
    exact (others id other).trans (ledger.spared id fun placed member =>
      spares placed (List.mem_append_left _ member))
  case entry =>
    intro found module stored
    simp only [ModuleMap.setEntry, Function.update_apply] at stored
    split at stored
    next here =>
      cases stored
      exact ⟨addition, by simp, rfl, here ▸ assigned⟩
    next =>
      rw [entry] at stored
      obtain ⟨other, member, owner, carried⟩ := ledger.entry found module stored
      exact ⟨other, List.mem_append_left _ member, owner, (same member).trans carried⟩
  case latest =>
    intro first last later found split carried unique
    simp only [ModuleMap.setEntry, Function.update_apply]
    rcases List.eq_nil_or_concat' later with rfl | ⟨between, final, rfl⟩
    next =>
      obtain ⟨-, rfl⟩ := List.append_singleton_inj.1 split
      rw [if_pos (Option.some.inj (carried.symm.trans assigned))]
    next =>
      rw [← List.cons_append, ← List.append_assoc] at split
      obtain ⟨rfl, rfl⟩ := List.append_singleton_inj.1 split
      have other : found ≠ index := by
        rintro rfl
        exact unique addition (by simp) assigned
      rw [if_neg other, entry]
      refine ledger.latest first last between found rfl ((same (by simp)).symm.trans carried) ?_
      intro another member carries
      exact unique another (List.mem_append_left _ member) ((same (by simp [member])).trans carries)
  case taken =>
    refine List.pairwise_append.2 ⟨?_, List.pairwise_singleton _ _, ?_⟩
    next =>
      refine ledger.taken.imp_of_mem ?_
      intro earlier later one two taken shares
      have takes := taken (((same one).symm.trans shares).trans (same two))
      exact ⟨takes.1, takes.2.trans (same one).symm⟩
    next =>
      intro earlier member later now shares
      obtain rfl := List.mem_singleton.1 now
      obtain ⟨found, carried, -, below, own⟩ := ledger.index earlier member
      have here : earlier.index? given.definition = some index := shares.trans assigned
      rw [← same member, here] at carried
      cases carried
      rcases fresh with ⟨-, above⟩ | explicit
      next => omega
      next =>
        have unassigned : earlier.index? definition = none := by
          rcases own with none | named
          next => exact none
          next => exact (apart earlier member).indices (named.trans explicit.symm)
        exact ⟨unassigned, explicit.trans here.symm⟩

theorem Ledger.add (ledger : Ledger definition placed map)
    (suited : Suited definition (· ∈ map.live) (placed ++ addition :: rest)) :
    (∃ next, map.add addition.module addition.definition = (.ok (), next) ∧ next.live = map.live ∧
      Ledger definition (placed ++ [addition]) next) ∨
    (addition.index? definition = none ∧ map.add addition.module addition.definition =
      (.error (.upcall .indexSpaceExhausted), map)) := by
  have member : addition ∈ placed ++ addition :: rest := by simp
  have apart : ∀ other ∈ placed, other.Apart definition addition := fun other before =>
    (List.pairwise_append.1 suited.apart).2.2 other before addition List.mem_cons_self
  have unplaced : map.definition addition.definition = definition addition.definition :=
    ledger.spared _ fun other before => (apart other before).definitions
  have single : (map.definition addition.definition).hasSlots = false :=
    unplaced ▸ suited.single addition member
  have live := suited.live addition member
  have unowned (index : ModuleIndex) : map.entry index ≠ some addition.module := by
    intro stored
    obtain ⟨other, before, same, -⟩ := ledger.entry index addition.module stored
    exact (apart other before).modules same
  cases assigned : (map.definition addition.definition).index? with
  | some index =>
    have explicit : addition.index? definition = some index :=
      (congrArg ModuleDefinition.index? unplaced).symm.trans assigned
    have fits := suited.fits addition member index explicit
    refine .inl ⟨_, ModuleMap.add_of_init single (ModuleMap.init_of_index? assigned) fits live
      (unowned index), rfl, ?_⟩
    exact ledger.place apart rfl le_rfl (fun _ _ => rfl) single assigned fits (.inr explicit)
  | none =>
    have unassigned : addition.index? definition = none :=
      (congrArg ModuleDefinition.index? unplaced).symm.trans assigned
    let index : ModuleIndex := ⟨map.highest + 1, Nat.succ_pos _⟩
    by_cases fits : index.Fits
    next =>
      refine .inl ⟨_, ModuleMap.add_of_init single (ModuleMap.init_of_fits assigned rfl fits) fits live
        (unowned index), rfl, ?_⟩
      refine ledger.place apart rfl (Nat.le_succ _) (fun id other => Function.update_of_ne other _ _)
        ?_ ?_ fits (.inl ⟨unassigned, Nat.lt_succ_self _⟩)
      next => simp [single]
      next => simp [Addition.index?, ModuleDefinition.index?]
    next => exact .inr ⟨unassigned, ModuleMap.add_of_error single (ModuleMap.init_of_not_fits assigned fits)⟩

end Addition

theorem playAll_cons {event : Event} {rest : List Event} {process middle last : Process Host}
    {answer : EventAnswer} {answers : List EventAnswer} (played : event.play process = .ok answer middle)
    (ran : playAll rest middle = .ok answers last) :
    playAll (event :: rest) process = .ok (answer :: answers) last := by
  change EStateM.bind event.play _ process = _
  rw [EStateM.bind, played]
  change EStateM.bind (playAll rest) _ middle = _
  rw [EStateM.bind, ran]
  rfl

namespace Shared

variable {process : Process Host} {map : ModuleMap}

theorem Represents.lookups (represents : process.shared.Represents map) (lookups : List Lookup) :
    ∃ last, StateBridge.playAll (lookups.map Lookup.event) process = .ok (lookups.map fun lookup =>
      .module (.found (.ok (map.find lookup.definition).1))) last := by
  induction lookups generalizing process map with
  | nil => exact ⟨process, rfl⟩
  | cons lookup rest ih =>
    have allowed : lookup.event.Allowed process := trivial
    obtain ⟨middle, played, between⟩ := represents.modules lookup.bridge lookup.thread allowed
    obtain ⟨last, ran⟩ := ih between
    simp only [ModuleMap.reply, Prod.map_snd, id_eq, ModuleMap.find_find] at ran
    exact ⟨last, playAll_cons played ran⟩

end Shared

namespace Addition

variable {definition : DefinitionId → ModuleDefinition} {map : ModuleMap} {process : Process Host}
  {placed additions : List Addition}

theorem Ledger.playAll (ledger : Ledger definition placed map)
    (represents : process.shared.Represents map)
    (suited : Suited definition (· ∈ map.live) (placed ++ additions)) :
    ∃ results after last, StateBridge.playAll (additions.map event) process =
        .ok (results.map fun result => .module (.status result)) after ∧
      results.length = additions.length ∧
      (∀ pair ∈ additions.zip results, pair.2 = .ok () ∨
        pair.1.index? definition = none ∧ pair.2 = .error (.upcall .indexSpaceExhausted)) ∧
      after.shared.Represents last ∧ Ledger definition (placed ++ succeeded additions results) last := by
  induction additions generalizing process map placed with
  | nil => exact ⟨[], process, map, rfl, rfl, by simp, represents, by simpa [succeeded] using ledger⟩
  | cons addition rest ih =>
    have allowed : addition.event.Allowed process := trivial
    obtain ⟨middle, played, between⟩ := represents.modules addition.bridge addition.thread allowed
    simp only [ModuleMap.reply] at played between
    rcases ledger.add suited with ⟨next, added, live, longer⟩ | ⟨unassigned, refused⟩
    next =>
      rw [added] at played between
      have more : Suited definition (· ∈ next.live) (placed ++ [addition] ++ rest) := by
        rw [live, List.append_assoc, List.singleton_append]
        exact suited
      obtain ⟨results, after, last, ran, length, told, represents, ledger⟩ :=
        ih longer between more
      refine ⟨.ok () :: results, after, last, playAll_cons played ran, by simp [length], ?_, represents, ?_⟩
      next => simpa using told
      next => simpa [succeeded, Except.isOk, Except.toBool] using ledger
    next =>
      rw [refused] at played between
      have fewer : (placed ++ rest).Sublist (placed ++ addition :: rest) :=
        (List.sublist_cons_self addition rest).append_left placed
      obtain ⟨results, after, last, ran, length, told, represents, ledger⟩ :=
        ih ledger between (suited.sublist fewer)
      refine ⟨_ :: results, after, last, playAll_cons played ran, by simp [length], ?_, represents, ?_⟩
      next => simpa [unassigned] using told
      next => simpa [succeeded, Except.isOk, Except.toBool] using ledger

end Addition

namespace Addition

variable {definition : DefinitionId → ModuleDefinition} {map : ModuleMap}
  {first later : List Addition} {addition other : Addition}

theorem Ledger.shares_iff (ledger : Ledger definition (first ++ addition :: later) map)
    (member : other ∈ later) : addition.index? map.definition = other.index? map.definition ↔
      Takes definition map.definition other addition := by
  constructor
  next =>
    have taken := (List.pairwise_append.1 ledger.taken).2.1
    exact (List.pairwise_cons.1 taken).1 other member
  next =>
    intro takes
    obtain ⟨index, carried, -⟩ := ledger.index addition (by simp)
    obtain ⟨found, own, -, -, given⟩ := ledger.index other (by simp [member])
    rcases given with unassigned | explicit
    next =>
      rw [takes.2, carried] at unassigned
      cases unassigned
    next => rw [own, ← explicit, takes.2]

theorem Ledger.find_own (ledger : Ledger definition (first ++ addition :: later) map)
    (untaken : ∀ other ∈ later, ¬ Takes definition map.definition other addition) :
    (map.find addition.definition).1 = some addition.module := by
  obtain ⟨index, carried, fits, -⟩ := ledger.index addition (by simp)
  rw [ModuleMap.find_of_index? (ledger.single addition (by simp)) carried fits]
  refine ledger.latest first addition later index rfl carried fun other member shares => ?_
  exact untaken other member ((ledger.shares_iff member).1 (carried.trans shares.symm))

theorem Ledger.find_taken (ledger : Ledger definition (first ++ addition :: later) map)
    (member : other ∈ later) (takes : Takes definition map.definition other addition) :
    (map.find addition.definition).1 = some other.module := by
  obtain ⟨index, carried, fits, -⟩ := ledger.index addition (by simp)
  have shares := (ledger.shares_iff member).2 takes
  obtain ⟨between, rest, rfl⟩ := List.append_of_mem member
  have same : first ++ addition :: (between ++ other :: rest) =
    (first ++ addition :: between) ++ other :: rest := by simp
  rw [same] at ledger
  -- A definition that had its index from the start is not one that another takes the index from.
  have untaken : ∀ another ∈ rest, ¬ Takes definition map.definition another other := by
    intro another _ again
    have unassigned := again.1
    rw [takes.2, carried] at unassigned
    cases unassigned
  have found := ledger.find_own untaken
  have present := ledger.single addition (by simp)
  rw [ModuleMap.find_of_index? (ledger.single other (by simp)) (shares.symm.trans carried) fits] at found
  rw [ModuleMap.find_of_index? present carried fits]
  exact found

end Addition

theorem Host.Reached.numbered {host : Host} (reached : host.Reached) :
    ∃ named, host.Numbered named := by
  induction reached with
  | new explicitAttach => exact ⟨[], Host.new_numbered explicitAttach⟩
  | @called host after thread call answer reached ran ih =>
    obtain ⟨named, numbered⟩ := ih
    obtain ⟨told, other, again, -, called⟩ := reached.tagged.called thread call
    rw [ran] at again
    cases again
    cases called with
    | spared other same => exact ⟨named, numbered.same same⟩
    | invoked invoked numbers => exact ⟨_, (numbered.step numbers).1⟩
  | exited reached dropped ih =>
    obtain ⟨named, numbered⟩ := ih
    exact ⟨named, numbered.same (Host.dropThreadState_same dropped)⟩

-- There are only so many handles, so any modules among them can be listed.
theorem ModuleHandle.listed (live : ModuleHandle → Prop) :
    ∃ modules : List ModuleHandle, ∀ module, module ∈ modules ↔ live module := by
  have finite : Finite ModuleHandle := by
    refine Finite.of_injective (fun module : ModuleHandle => module.handle.bits.toFin) ?_
    rintro ⟨⟨first⟩, one⟩ ⟨⟨second⟩, two⟩ same
    obtain rfl : first = second := UInt64.toFin_inj.1 same
    rfl
  exact ⟨(Set.toFinite { module | live module }).toFinset.toList, fun module => by simp⟩

theorem Host.Reached.mapped {process : Process Host} (reached : process.world.Reached) :
    ∃ map : ModuleMap, process.shared.Represents map ∧ map.definition = process.definition ∧
      (∀ index, map.highest < index.value → map.entry index = none) ∧
        ∀ module, module ∈ map.live ↔ (process.world.moduleName? module).isSome := by
  obtain ⟨named, numbered⟩ := reached.numbered
  obtain ⟨modules, listed⟩ :=
    ModuleHandle.listed fun module => (process.world.moduleName? module).isSome
  refine ⟨⟨process.world.registeredModule?, process.definition, modules, process.world.highestIndex⟩,
    ⟨reached.tagged, fun _ => rfl, rfl, ?_, rfl⟩, rfl, fun _ => numbered.unregistered, listed⟩
  exact fun module => (listed module).trans Host.moduleName?_isSome_iff

theorem Host.Reached.represents {process : Process Host} (reached : process.world.Reached)
    (unseen : process.world.highestIndex = 0) : ∃ map : ModuleMap, process.shared.Represents map ∧
      map.definition = process.definition ∧ (∀ index, map.entry index = none) ∧
        ∀ module, module ∈ map.live ↔ (process.world.moduleName? module).isSome := by
  obtain ⟨map, represents, definitions, unregistered, listed⟩ := reached.mapped
  have lowest : map.highest = 0 := represents.highest.symm.trans unseen
  exact ⟨map, represents, definitions,
    fun index => unregistered index (lowest.trans_lt index.positive), listed⟩

-- A definition can be given the very index that a later one carries from the start.
theorem additions_share_index_iff (process : Process Host) (reached : process.world.Reached)
    (unseen : process.world.highestIndex = 0) (additions : List Addition)
    (suited : Addition.Suited process.definition
      (fun module => (process.world.moduleName? module).isSome) additions) :
    ∃ results after, ∃ holder : DefinitionId → Option ModuleHandle,
      playAll (additions.map Addition.event) process =
          .ok (results.map fun result => .module (.status result)) after ∧
      results.length = additions.length ∧
      (∀ pair ∈ additions.zip results, pair.2 = .ok () ∨
        pair.1.index? process.definition = none ∧ pair.2 = .error (.upcall .indexSpaceExhausted)) ∧
      (∀ lookups : List Lookup, ∃ last, playAll (lookups.map Lookup.event) after =
        .ok (lookups.map fun lookup => .module (.found (.ok (holder lookup.definition)))) last) ∧
      ∀ first addition later, Addition.succeeded additions results = first ++ addition :: later →
        (∃ index, addition.index? after.definition = some index ∧ index.Fits ∧
          ∀ given, addition.index? process.definition = some given → given = index) ∧
        (∀ other ∈ later, addition.index? after.definition = other.index? after.definition ↔
          Addition.Takes process.definition after.definition other addition) ∧
        ((∀ other ∈ later, ¬ Addition.Takes process.definition after.definition other addition) →
          holder addition.definition = some addition.module) ∧
        ∀ other ∈ later, Addition.Takes process.definition after.definition other addition →
          holder addition.definition = some other.module := by
  obtain ⟨map, represents, same, empty, listed⟩ := reached.represents unseen
  have ledger := Addition.Ledger.start map empty
  rw [same] at ledger
  have listable : Addition.Suited process.definition (· ∈ map.live) ([] ++ additions) :=
    ⟨suited.single, suited.fits, fun addition member => (listed _).2 (suited.live addition member),
      suited.apart⟩
  obtain ⟨results, after, last, ran, length, told, later, ledger⟩ := ledger.playAll represents listable
  refine ⟨results, after, fun definition => (last.find definition).1, ran, length, told,
    later.lookups, ?_⟩
  intro first addition rest split
  have definitions : after.definition = last.definition := later.definition
  rw [List.nil_append, split] at ledger
  rw [definitions]
  refine ⟨?_, fun other member => ledger.shares_iff member, ledger.find_own,
    fun other member => ledger.find_taken member⟩
  obtain ⟨index, carried, fits, -, own⟩ := ledger.index addition (by simp)
  refine ⟨index, carried, fits, fun given explicit => ?_⟩
  rcases own with unassigned | kept
  next => simp [unassigned] at explicit
  next => exact Option.some.inj (explicit.symm.trans kept)

-- A definition gets index 1, which a later one carries already: both now find the later module.
theorem given_index_is_taken :
    let first : ModuleHandle := ⟨⟨0x0400010000000000⟩, by decide⟩
    let second : ModuleHandle := ⟨⟨0x0400010000000001⟩, by decide⟩
    let host : Host := { Host.new false with
      objects := ⟨#[⟨some (.module "a"), .module, 1⟩, ⟨some (.module "b"), .module, 1⟩], [], 2⟩ }
    let process : Process Host := { Process.start host with
      definitions := FiniteMap.empty.insert ⟨1⟩ ⟨1, false⟩ }
    let additions : List Addition := [⟨⟨0⟩, ⟨0⟩, first, ⟨0⟩⟩, ⟨⟨0⟩, ⟨0⟩, second, ⟨1⟩⟩]
    let lookups : List Lookup := [⟨⟨0⟩, ⟨0⟩, ⟨0⟩⟩, ⟨⟨0⟩, ⟨0⟩, ⟨1⟩⟩]
    host.Reached ∧ host.highestIndex = 0 ∧ Addition.Suited process.definition
        (fun module => (process.world.moduleName? module).isSome) additions ∧
      (Process.outcome
        (playAll (additions.map Addition.event ++ lookups.map Lookup.event) process)).map
          (fun (answers, shared) => (answers, shared.definition ⟨0⟩, shared.definition ⟨1⟩)) =
        .ok ([.module (.status (.ok ())), .module (.status (.ok ())),
          .module (.found (.ok (some second))), .module (.found (.ok (some second)))],
          ⟨1, false⟩, ⟨1, false⟩) ∧
      first ≠ second := by
  intro first second host process additions lookups
  have made : (Host.new false).call ⟨0⟩ (.newModule "a") = .ok (.module first, { Host.new false with
      objects := ⟨#[⟨some (.module "a"), .module, 1⟩], [], 1⟩ }) := rfl
  have more : Host.call { Host.new false with
      objects := ⟨#[⟨some (.module "a"), .module, 1⟩], [], 1⟩ } ⟨0⟩ (.newModule "b") =
    .ok (.module second, host) := rfl
  exact ⟨.called (.called (.new false) made) more, rfl, by decide +kernel, by decide +kernel,
    by decide⟩

-- One definition has index 1, and a later one has the index that the one between them is given.
theorem additions_share_index_iff_given_index :
    let module (bits : UInt64) (isKind : (Handle.mk bits).kind? = some .module) : ModuleHandle :=
      ⟨⟨bits⟩, isKind⟩
    let first := module 0x0400010000000000 (by decide)
    let second := module 0x0400010000000001 (by decide)
    let third := module 0x0400010000000002 (by decide)
    let host : Host := { Host.new true with
      objects := ⟨#[⟨some (.module "a"), .module, 1⟩, ⟨some (.module "b"), .module, 1⟩,
        ⟨some (.module "c"), .module, 1⟩], [], 3⟩ }
    let process : Process Host := { Process.start host with
      definitions := (FiniteMap.empty.insert ⟨0⟩ ⟨1, false⟩).insert ⟨2⟩ ⟨2, false⟩ }
    let additions : List Addition :=
      [⟨⟨0⟩, ⟨0⟩, first, ⟨0⟩⟩, ⟨⟨1⟩, ⟨0⟩, second, ⟨1⟩⟩, ⟨⟨0⟩, ⟨1⟩, third, ⟨2⟩⟩]
    host.Reached ∧ host.highestIndex = 0 ∧ Addition.Suited process.definition
        (fun module => (process.world.moduleName? module).isSome) additions ∧
      ∃ after, ∃ holder : DefinitionId → Option ModuleHandle,
        playAll (additions.map Addition.event) process =
          .ok [.module (.status (.ok ())), .module (.status (.ok ())), .module (.status (.ok ()))]
            after ∧
        (∀ lookups : List Lookup, ∃ last, playAll (lookups.map Lookup.event) after =
          .ok (lookups.map fun lookup => .module (.found (.ok (holder lookup.definition)))) last) ∧
        holder ⟨0⟩ = some first ∧ holder ⟨1⟩ = some third ∧ holder ⟨2⟩ = some third := by
  intro module first second third host process additions
  have reached : host.Reached := by
    have one : (Host.new true).call ⟨0⟩ (.newModule "a") = .ok (.module first, { Host.new true with
        objects := ⟨#[⟨some (.module "a"), .module, 1⟩], [], 1⟩ }) := rfl
    have two : Host.call { Host.new true with
        objects := ⟨#[⟨some (.module "a"), .module, 1⟩], [], 1⟩ } ⟨0⟩ (.newModule "b") =
      .ok (.module second, { Host.new true with
        objects := ⟨#[⟨some (.module "a"), .module, 1⟩, ⟨some (.module "b"), .module, 1⟩], [], 2⟩ }) := rfl
    have three : Host.call { Host.new true with
        objects := ⟨#[⟨some (.module "a"), .module, 1⟩, ⟨some (.module "b"), .module, 1⟩], [], 2⟩ }
          ⟨0⟩ (.newModule "c") = .ok (.module third, host) := rfl
    exact .called (.called (.called (.new true) one) two) three
  have suited : Addition.Suited process.definition
    (fun module => (process.world.moduleName? module).isSome) additions := by decide +kernel
  refine ⟨reached, rfl, suited, ?_⟩
  obtain ⟨results, after, holder, ran, -, -, lookups, shares⟩ :=
    additions_share_index_iff process reached rfl additions suited
  have computed : (Process.outcome (playAll (additions.map Addition.event) process)).map
      (fun (answers, shared) => (answers, shared.definition ⟨1⟩)) =
    .ok ([.ok (), .ok (), .ok ()].map fun result => .module (.status result), ⟨2, false⟩) := by
    decide +kernel
  rw [ran] at computed
  obtain ⟨told, given⟩ := Prod.mk.inj (Except.ok.inj computed)
  have injective : Function.Injective fun result => EventAnswer.module (.status result) := by
    rintro first second ⟨⟩
    rfl
  obtain rfl : results = [.ok (), .ok (), .ok ()] := List.map_injective_iff.2 injective told
  refine ⟨after, holder, ran, lookups, ?_, ?_, ?_⟩
  next =>
    obtain ⟨-, -, own, -⟩ := shares [] additions[0] [additions[1], additions[2]] rfl
    exact own fun other _ takes => absurd takes.1 (by decide +kernel)
  next =>
    obtain ⟨-, -, -, taken⟩ := shares [additions[0]] additions[1] [additions[2]] rfl
    refine taken additions[2] (by simp) ⟨by decide +kernel, ?_⟩
    change _ = (after.definition ⟨1⟩).index?
    rw [show after.definition ⟨1⟩ = ⟨2, false⟩ from given]
    decide +kernel
  next =>
    obtain ⟨-, -, own, -⟩ := shares [additions[0], additions[1]] additions[2] [] rfl
    exact own (by simp)

end StateBridge
