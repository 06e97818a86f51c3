import StateBridge.FiniteMap
import StateBridge.Handle.Table
import StateBridge.Handle.Typed
import StateBridge.Module.Registry
import StateBridge.Upcall.Operation

set_option autoImplicit false

namespace StateBridge

inductive ManagedValue where
  | threadState (dict? : Option Handle)
  | dict (entries : FiniteMap String Handle)
  | module (name : String)

/-- A thread has at most one state, a state at most one dict, and both go with the thread. -/
structure Host where
  objects : HandleTable ManagedValue
  threads : FiniteMap ThreadId Handle
  modules : ModuleRegistry
  -- The highest module index seen or handed out.
  highestIndex : Nat
  explicitAttach : Bool

namespace Host

def new (explicitAttach : Bool) : Host := ⟨.empty, .empty, .empty, 0, explicitAttach⟩

instance : Inhabited Host := ⟨new false⟩

def liveObjects (host : Host) : Nat := host.objects.size

def registeredModuleCount (host : Host) : Nat := host.modules.size

def registeredModule? (host : Host) (index : ModuleIndex) : Option ModuleHandle :=
  host.modules.find? index

def newThreadState (host : Host) (thread : ThreadId) : Except Fault (Handle × Host) := do
  let (handle, objects) ← host.objects.insert .threadState (.threadState none)
  return (handle, { host with objects, threads := host.threads.insert thread handle })

def dropThreadState (host : Host) (thread : ThreadId) : Except Fault (Bool × Host) :=
  match host.threads.find? thread with
  | none => return (false, host)
  | some handle => do
    -- The state goes first, so the slot of its dict is the next one to be taken.
    let (value?, objects) ← host.objects.remove handle
    let host := { host with threads := host.threads.erase thread }
    match value? with
    | some (.threadState (some dict)) =>
      let (_, objects) ← objects.remove dict
      return (true, { host with objects })
    | _ => return (true, { host with objects })

-- The table tags a handle with the kind that its value was inserted under.
def typed {α : Type} (wrapped? : Option α) : Except Fault α :=
  match wrapped? with
  | some wrapped => .ok wrapped
  | none => .error .wrongTableKind

def attach (host : Host) (thread : ThreadId) : Except Fault (ThreadStateHandle × Host) :=
  match host.threads.find? thread with
  | some handle => return (← typed (ThreadStateHandle.ofHandle? handle), host)
  | none => do
    let (handle, host) ← host.newThreadState thread
    return (← typed (ThreadStateHandle.ofHandle? handle), host)

def switch (host : Host) (thread : ThreadId) : Except Fault (ThreadStateHandle × Host) := do
  let (_, host) ← host.dropThreadState thread
  let (handle, host) ← host.newThreadState thread
  return (← typed (ThreadStateHandle.ofHandle? handle), host)

def detach (host : Host) (thread : ThreadId) : Except Fault (Bool × Host) :=
  host.dropThreadState thread

def newModule (host : Host) (name : String) : Except Fault (ModuleHandle × Host) := do
  let (handle, objects) ← host.objects.insert .module (.module name)
  return (← typed (ModuleHandle.ofHandle? handle), { host with objects })

def moduleName? (host : Host) (module : ModuleHandle) : Option String :=
  match host.objects.get? module.handle with
  | some (.module name) => some name
  | _ => none

def dictEntries? (host : Host) (dict : DictHandle) : Option (FiniteMap String Handle) :=
  match host.objects.get? dict.handle with
  | some (.dict entries) => some entries
  | _ => none

def dictSet (host : Host) (dict : DictHandle) (key : String) (value : Handle) : Bool × Host :=
  match host.dictEntries? dict with
  | some entries =>
    (true, { host with objects := host.objects.set dict.handle (.dict (entries.insert key value)) })
  | none => (false, host)

def dictGet? (host : Host) (dict : DictHandle) (key : String) : Option Handle := do
  (← host.dictEntries? dict).find? key

def dictSize? (host : Host) (dict : DictHandle) : Option Nat :=
  (host.dictEntries? dict).map FiniteMap.size

def noteIndex (host : Host) (index : ModuleIndex) : Host :=
  { host with highestIndex := max host.highestIndex index.value }

def upperIndex (host : Host) : ModuleIndex := ⟨host.highestIndex + 1, Nat.succ_pos _⟩

def nextIndex? (host : Host) : Option ModuleIndex :=
  if host.upperIndex.Fits then some host.upperIndex else none

end Host

end StateBridge
