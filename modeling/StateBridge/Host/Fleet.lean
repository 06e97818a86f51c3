import StateBridge.Host.Call

set_option autoImplicit false

namespace StateBridge

structure Fleet where
  hosts : FiniteMap RuntimeId Host
  guards : FiniteMap ThreadId (List RuntimeId)

namespace Fleet

def empty : Fleet := ⟨.empty, .empty⟩

instance : Inhabited Fleet := ⟨empty⟩

def host? (fleet : Fleet) (runtime : RuntimeId) : Option Host := fleet.hosts.find? runtime

def guard (fleet : Fleet) (thread : ThreadId) : List RuntimeId :=
  (fleet.guards.find? thread).getD []

def start (fleet : Fleet) (runtime : RuntimeId) (host : Host) : Fleet :=
  { fleet with hosts := fleet.hosts.insert runtime host }

def discard (fleet : Fleet) (runtime : RuntimeId) : Fleet :=
  { fleet with hosts := fleet.hosts.erase runtime }

def watch (fleet : Fleet) (thread : ThreadId) (runtime : RuntimeId) : Fleet :=
  let live := (fleet.guard thread).filter fleet.hosts.contains
  let listed := if runtime ∈ live then live else live ++ [runtime]
  { fleet with guards := fleet.guards.insert thread listed }

def call (fleet : Fleet) (runtime : RuntimeId) (thread : ThreadId) (request : HostCall) :
    Except Fault (Option HostAnswer × Fleet) :=
  match fleet.host? runtime with
  | none => return (none, fleet)
  | some host => do
    let (answer, after) ← host.call thread request
    let fleet := fleet.start runtime after
    return (some answer, if host.attaches thread request then fleet.watch thread runtime else fleet)

def dropIn (thread : ThreadId) : List RuntimeId → Fleet → Except Fault Fleet
  | [], fleet => return fleet
  | runtime :: rest, fleet =>
    match fleet.host? runtime with
    | none => dropIn thread rest fleet
    | some host => do
      let (_, after) ← host.dropThreadState thread
      dropIn thread rest (fleet.start runtime after)

def exit (fleet : Fleet) (thread : ThreadId) : Except Fault Fleet := do
  let fleet ← dropIn thread (fleet.guard thread) fleet
  return { fleet with guards := fleet.guards.erase thread }

end Fleet

end StateBridge
