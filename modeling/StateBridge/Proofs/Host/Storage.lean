import StateBridge.Proofs.Host.Query
import StateBridge.Proofs.Process.Events

set_option autoImplicit false

namespace StateBridge

structure OwnedState where
  state : ThreadStateHandle
  dict? : Option (DictHandle × FiniteMap String Handle)

def OwnedState.objects (owned : OwnedState) : List (Handle × ManagedValue) :=
  match owned.dict? with
  | none => [(owned.state.handle, .threadState none)]
  | some (dict, entries) =>
    [(owned.state.handle, .threadState (some dict.handle)), (dict.handle, .dict entries)]

-- There is no place here for a state or a dict that nobody owns.
structure Storage where
  owned : FiniteMap ThreadId OwnedState
  names : FiniteMap ModuleHandle String
  entry : ModuleIndex → Option ModuleHandle
  highest : Nat
  explicitAttach : Bool

namespace Storage

def start (explicitAttach : Bool) : Storage := ⟨.empty, .empty, fun _ => none, 0, explicitAttach⟩

def objects (storage : Storage) : List (Handle × ManagedValue) :=
  storage.owned.entries.flatMap (fun entry => entry.2.objects) ++
    storage.names.entries.map fun entry => (entry.1.handle, .module entry.2)

def Unused (storage : Storage) (handle : Handle) : Prop := handle ∉ storage.objects.map Prod.fst

def put (storage : Storage) (thread : ThreadId) (owned : OwnedState) : Storage :=
  { storage with owned := storage.owned.insert thread owned }

def release (storage : Storage) (thread : ThreadId) : Storage :=
  { storage with owned := storage.owned.erase thread }

def addModule (storage : Storage) (module : ModuleHandle) (name : String) : Storage :=
  { storage with names := storage.names.insert module name }

def noteIndex (storage : Storage) (index : ModuleIndex) : Storage :=
  { storage with highest := max storage.highest index.value }

def setEntry (storage : Storage) (index : ModuleIndex) (module? : Option ModuleHandle) : Storage :=
  { storage.noteIndex index with entry := Function.update storage.entry index module? }

def upperIndex (storage : Storage) : ModuleIndex := ⟨storage.highest + 1, Nat.succ_pos _⟩

def Reads (storage : Storage) (dict : DictHandle) (entries : FiniteMap String Handle) : Prop :=
  ∃ owner owned, storage.owned.find? owner = some owned ∧ owned.dict? = some (dict, entries)

end Storage

inductive HostEvent where
  | call (thread : ThreadId) (request : HostCall)
  | bridged (bridge : BridgeId) (thread : ThreadId) (request : ThreadRequest)
  | exit (thread : ThreadId)

namespace HostEvent

def toEvent : HostEvent → Event
  | .call thread request => .direct thread request
  | .bridged bridge thread request => .threads bridge thread request
  | .exit thread => .exit thread

def play (event : HostEvent) : Run Host EventAnswer := event.toEvent.play

def ends (thread : ThreadId) : HostEvent → Bool
  | .call caller .switch | .call caller .detach | .exit caller => caller = thread
  | _ => false

def stored? (dict : DictHandle) (key : String) : HostEvent → Option Handle
  | .call _ (.dictSet written at_ value) => if written = dict ∧ at_ = key then some value else none
  | _ => none

end HostEvent

def playEvents (events : List HostEvent) : Run Host (List EventAnswer) :=
  playAll (events.map HostEvent.toEvent)

def lastStored? (dict : DictHandle) (key : String) (events : List HostEvent) : Option Handle :=
  events.reverse.findSome? (HostEvent.stored? dict key)

section

variable (storage : Storage) (thread : ThreadId)

inductive ResolveStep : Except UpcallError ThreadStateHandle → Storage → Prop
  | owned {owned : OwnedState} (mine : storage.owned.find? thread = some owned) :
    ResolveStep (.ok owned.state) storage
  | made {state : ThreadStateHandle} (missing : storage.owned.find? thread = none)
      (lazily : storage.explicitAttach = false) (unused : storage.Unused state.handle) :
    ResolveStep (.ok state) (storage.put thread ⟨state, none⟩)
  | unattached (missing : storage.owned.find? thread = none)
      (waits : storage.explicitAttach = true) : ResolveStep (.error .noThreadState) storage

inductive DictStep (state : Handle) : Except UpcallError DictHandle → Storage → Prop
  | present {owner : ThreadId} {owned : OwnedState} {dict : DictHandle}
      {entries : FiniteMap String Handle} (live : storage.owned.find? owner = some owned)
      (named : owned.state.handle = state) (read : owned.dict? = some (dict, entries)) :
    DictStep state (.ok dict) storage
  | made {owner : ThreadId} {owned : OwnedState} {dict : DictHandle}
      (live : storage.owned.find? owner = some owned) (named : owned.state.handle = state)
      (unread : owned.dict? = none) (unused : storage.Unused dict.handle) :
    DictStep state (.ok dict) (storage.put owner { owned with dict? := some (dict, .empty) })
  | dead (none_such : ∀ owner owned, storage.owned.find? owner = some owned →
      owned.state.handle ≠ state) :
    DictStep state (.error (.invalidArgument .threadStateDict .notLiveThreadState)) storage

inductive QueryStep : HostQuery → Except UpcallError Handle → Storage → Prop
  | resolve {answer : Except UpcallError ThreadStateHandle} {next : Storage}
      (step : ResolveStep storage thread answer next) :
    QueryStep .resolve (answer.map TypedHandle.handle) next
  | dictOf {state : Handle} {answer : Except UpcallError DictHandle} {next : Storage}
      (step : DictStep storage state answer next) :
    QueryStep (.dictOf state) (answer.map TypedHandle.handle) next
  | find (index : ModuleIndex) :
    QueryStep (.find index) (.ok (Host.moduleAnswer (storage.entry index))) (storage.noteIndex index)
  | add {module : ModuleHandle} (index : ModuleIndex)
      (live : (storage.names.find? module).isSome) :
    QueryStep (.add module.handle index) (.ok (Host.moduleAnswer (storage.entry index)))
      (storage.setEntry index (some module))
  | addDead {handle : Handle} (index : ModuleIndex) (none_such : ∀ module : ModuleHandle,
      module.handle = handle → storage.names.find? module = none) :
    QueryStep (.add handle index) (.error (.invalidArgument .addModuleByIndex .notLiveModule)) storage
  | remove (index : ModuleIndex) :
    QueryStep (.remove index) (.ok (Host.moduleAnswer (storage.entry index)))
      (storage.setEntry index none)
  | assign {handle : Handle} (fits : storage.upperIndex.Fits)
      (carried : Handle.ofInt storage.upperIndex.value = .ok handle) :
    QueryStep .assign (.ok handle) (storage.noteIndex storage.upperIndex)
  | exhausted (wide : ¬ storage.upperIndex.Fits) :
    QueryStep .assign (.error .indexSpaceExhausted) storage

end

-- Only the handle of a new object is left open: nothing else has it at that moment.
inductive StorageStep (storage : Storage) : HostEvent → EventAnswer → Storage → Prop
  | attached {thread : ThreadId} {owned : OwnedState}
      (mine : storage.owned.find? thread = some owned) :
    StorageStep storage (.call thread .attach) (.host (.threadState owned.state)) storage
  | attach {thread : ThreadId} {state : ThreadStateHandle}
      (missing : storage.owned.find? thread = none) (unused : storage.Unused state.handle) :
    StorageStep storage (.call thread .attach) (.host (.threadState state))
      (storage.put thread ⟨state, none⟩)
  | switch {thread : ThreadId} {state : ThreadStateHandle}
      (unused : (storage.release thread).Unused state.handle) :
    StorageStep storage (.call thread .switch) (.host (.threadState state))
      ((storage.release thread).put thread ⟨state, none⟩)
  | detach (thread : ThreadId) :
    StorageStep storage (.call thread .detach) (.host (.flag (storage.owned.contains thread)))
      (storage.release thread)
  | exit (thread : ThreadId) :
    StorageStep storage (.exit thread) (.exited (storage.owned.contains thread))
      (storage.release thread)
  | newModule (thread : ThreadId) (name : String) {module : ModuleHandle}
      (unused : storage.Unused module.handle) :
    StorageStep storage (.call thread (.newModule name)) (.host (.module module))
      (storage.addModule module name)
  | moduleName (thread : ThreadId) (module : ModuleHandle) :
    StorageStep storage (.call thread (.moduleName module))
      (.host (.name (storage.names.find? module))) storage
  | dictSet (thread : ThreadId) {owner : ThreadId} {owned : OwnedState} {dict : DictHandle}
      {entries : FiniteMap String Handle} (key : String) (value : Handle)
      (live : storage.owned.find? owner = some owned) (read : owned.dict? = some (dict, entries)) :
    StorageStep storage (.call thread (.dictSet dict key value)) (.host (.flag true))
      (storage.put owner { owned with dict? := some (dict, entries.insert key value) })
  | dictGet (thread : ThreadId) {dict : DictHandle} {entries : FiniteMap String Handle}
      (key : String) (reads : storage.Reads dict entries) :
    StorageStep storage (.call thread (.dictGet dict key)) (.host (.entry (entries.find? key))) storage
  | dictSize (thread : ThreadId) {dict : DictHandle} {entries : FiniteMap String Handle}
      (reads : storage.Reads dict entries) :
    StorageStep storage (.call thread (.dictSize dict)) (.host (.size (some entries.size))) storage
  | dictSetDead (thread : ThreadId) {dict : DictHandle} (key : String) (value : Handle)
      (dead : ∀ entries, ¬ storage.Reads dict entries) :
    StorageStep storage (.call thread (.dictSet dict key value)) (.host (.flag false)) storage
  | dictGetDead (thread : ThreadId) {dict : DictHandle} (key : String)
      (dead : ∀ entries, ¬ storage.Reads dict entries) :
    StorageStep storage (.call thread (.dictGet dict key)) (.host (.entry none)) storage
  | dictSizeDead (thread : ThreadId) {dict : DictHandle}
      (dead : ∀ entries, ¬ storage.Reads dict entries) :
    StorageStep storage (.call thread (.dictSize dict)) (.host (.size none)) storage
  | registeredModule (thread : ThreadId) (index : ModuleIndex) :
    StorageStep storage (.call thread (.registeredModule index))
      (.host (.registered (storage.entry index))) storage
  | refused (thread : ThreadId) {op : UpcallOp} {args : List Handle} {error : UpcallError}
      (malformed : HostQuery.read op args = .error error) :
    StorageStep storage (.call thread (.invoke op args)) (.host (.upcall (.error error))) storage
  | answered (thread : ThreadId) {op : UpcallOp} {args : List Handle} {query : HostQuery}
      {answer : Except UpcallError Handle} {next : Storage}
      (asks : HostQuery.read op args = .ok query) (step : QueryStep storage thread query answer next) :
    StorageStep storage (.call thread (.invoke op args)) (.host (.upcall answer)) next
  | current (bridge : BridgeId) {thread : ThreadId} {answer : Except UpcallError ThreadStateHandle}
      {next : Storage} (step : ResolveStep storage thread answer next) :
    StorageStep storage (.bridged bridge thread .current) (.state answer) next
  | currentDict (bridge : BridgeId) {thread : ThreadId} {state : ThreadStateHandle}
      {answer : Except UpcallError DictHandle} {middle next : Storage}
      (resolved : ResolveStep storage thread (.ok state) middle)
      (step : DictStep middle state.handle answer next) :
    StorageStep storage (.bridged bridge thread .currentDict) (.dict answer) next
  | unresolved (bridge : BridgeId) {thread : ThreadId} {error : UpcallError} {next : Storage}
      (step : ResolveStep storage thread (.error error) next) :
    StorageStep storage (.bridged bridge thread .currentDict) (.dict (.error error)) next
  | dictOf (bridge : BridgeId) (thread : ThreadId) {state : ThreadStateHandle}
      {answer : Except UpcallError DictHandle} {next : Storage}
      (step : DictStep storage state.handle answer next) :
    StorageStep storage (.bridged bridge thread (.dictOf state)) (.dict answer) next

inductive StorageRun : Storage → List HostEvent → List EventAnswer → Storage → Prop
  | done (storage : Storage) : StorageRun storage [] [] storage
  | next {storage middle last : Storage} {event : HostEvent} {answer : EventAnswer}
      {events : List HostEvent} {answers : List EventAnswer}
      (step : StorageStep storage event answer middle) (rest : StorageRun middle events answers last) :
    StorageRun storage (event :: events) (answer :: answers) last

end StateBridge
