import StateBridge.Host.Basic
import StateBridge.Upcall.Error

set_option autoImplicit false

namespace StateBridge

inductive HostQuery where
  | resolve
  | dictOf (state : Handle)
  | find (index : ModuleIndex)
  | add (module : Handle) (index : ModuleIndex)
  | remove (index : ModuleIndex)
  | assign
  deriving DecidableEq, Repr

namespace HostQuery

/-- A step that an upcall may fail with an error of its own, and that no upcall should fault. -/
abbrev Checked := ExceptT UpcallError (Except Fault)

def expectCount (op : UpcallOp) (args : List Handle) (expected : Nat) : Checked Unit :=
  if args.length = expected then return ()
  else throw (.invalidArgument op (.wrongCount expected args.length))

def argument (args : List Handle) (position : Nat) : Checked Handle :=
  match args[position]? with
  | some handle => return handle
  | none => ExceptT.lift (Except.error (Fault.argumentMissing position))

def expectIndex (op : UpcallOp) (handle : Handle) : Checked ModuleIndex :=
  match ModuleIndex.ofHandle? handle with
  | some index => return index
  | none => throw (.invalidArgument op .indexNotPositive)

def decode (op : UpcallOp) (args : List Handle) : Checked HostQuery :=
  match op with
  | .resolveCurrentThreadState => do
    expectCount op args 0
    return .resolve
  | .threadStateDict => do
    expectCount op args 1
    return .dictOf (← argument args 0)
  | .findModuleByIndex => do
    expectCount op args 1
    return .find (← expectIndex op (← argument args 0))
  | .addModuleByIndex => do
    expectCount op args 2
    let index ← expectIndex op (← argument args 1)
    return .add (← argument args 0) index
  | .removeModuleByIndex => do
    expectCount op args 1
    return .remove (← expectIndex op (← argument args 0))
  | .assignModuleIndex => do
    expectCount op args 0
    return .assign

end HostQuery

namespace Host

def moduleAnswer : Option ModuleHandle → Handle
  | none => .null
  | some module => module.handle

def liveModule? (host : Host) (handle : Handle) : Option ModuleHandle :=
  match host.objects.get? handle with
  | some (.module _) => ModuleHandle.ofHandle? handle
  | _ => none

def answer (host : Host) (thread : ThreadId) :
    HostQuery → Except Fault (Except UpcallError Handle × Host)
  | .resolve =>
    match host.threads.find? thread with
    | some handle => return (.ok handle, host)
    | none =>
      if host.explicitAttach then return (.error .noThreadState, host)
      else do
        let (handle, host) ← host.newThreadState thread
        return (.ok handle, host)
  | .dictOf state =>
    match host.objects.get? state with
    | some (.threadState (some dict)) => return (.ok dict, host)
    | some (.threadState none) => do
      let (dict, objects) ← host.objects.insert .dict (.dict .empty)
      let objects := objects.set state (.threadState (some dict))
      return (.ok dict, { host with objects })
    | _ => return (.error (.invalidArgument .threadStateDict .notLiveThreadState), host)
  | .find index =>
    -- A lookup names its index, and every index named is passed over by later assignments.
    return (.ok (moduleAnswer (host.modules.find? index)), host.noteIndex index)
  | .add handle index =>
    match host.liveModule? handle with
    | some module =>
      let host := host.noteIndex index
      let (previous?, modules) := host.modules.insert index module
      return (.ok (moduleAnswer previous?), { host with modules })
    | none => return (.error (.invalidArgument .addModuleByIndex .notLiveModule), host)
  | .remove index =>
    let host := host.noteIndex index
    let (removed?, modules) := host.modules.remove index
    return (.ok (moduleAnswer removed?), { host with modules })
  | .assign =>
    match host.nextIndex? with
    | some index => do
      let handle ← Handle.ofInt index.value
      return (.ok handle, { host with highestIndex := index.value })
    | none => return (.error .indexSpaceExhausted, host)

def invoke (host : Host) (thread : ThreadId) (op : UpcallOp) (args : List Handle) :
    Except Fault (Except UpcallError Handle × Host) := do
  match ← (HostQuery.decode op args).run with
  | .ok query => host.answer thread query
  | .error error => return (.error error, host)

end Host

end StateBridge
