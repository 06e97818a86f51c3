import StateBridge.Host.Query

set_option autoImplicit false

namespace StateBridge

inductive HostCall where
  | attach
  | switch
  | detach
  | newModule (name : String)
  | moduleName (module : ModuleHandle)
  | dictSet (dict : DictHandle) (key : String) (value : Handle)
  | dictGet (dict : DictHandle) (key : String)
  | dictSize (dict : DictHandle)
  | registeredModule (index : ModuleIndex)
  | invoke (op : UpcallOp) (args : List Handle)

inductive HostAnswer where
  | threadState (state : ThreadStateHandle)
  | flag (value : Bool)
  | module (module : ModuleHandle)
  | name (name? : Option String)
  | entry (value? : Option Handle)
  | size (size? : Option Nat)
  | registered (module? : Option ModuleHandle)
  | upcall (answer : Except UpcallError Handle)

namespace Host

def call (host : Host) (thread : ThreadId) : HostCall → Except Fault (HostAnswer × Host)
  | .attach => do
    let (state, host) ← host.attach thread
    return (.threadState state, host)
  | .switch => do
    let (state, host) ← host.switch thread
    return (.threadState state, host)
  | .detach => do
    let (had, host) ← host.detach thread
    return (.flag had, host)
  | .newModule name => do
    let (module, host) ← host.newModule name
    return (.module module, host)
  | .moduleName module => return (.name (host.moduleName? module), host)
  | .dictSet dict key value =>
    let (live, host) := host.dictSet dict key value
    return (.flag live, host)
  | .dictGet dict key => return (.entry (host.dictGet? dict key), host)
  | .dictSize dict => return (.size (host.dictSize? dict), host)
  | .registeredModule index => return (.registered (host.registeredModule? index), host)
  | .invoke op args => do
    let (answer, host) ← host.invoke thread op args
    return (.upcall answer, host)

def attaches (host : Host) (thread : ThreadId) : HostCall → Bool
  | .attach => !host.threads.contains thread
  | .switch => true
  | .invoke .resolveCurrentThreadState [] =>
    !host.threads.contains thread && !host.explicitAttach
  | _ => false

end Host

end StateBridge
