import StateBridge.Proofs.Process.Events

set_option autoImplicit false

namespace StateBridge

structure ModuleMap where
  entry : ModuleIndex → Option ModuleHandle
  definition : DefinitionId → ModuleDefinition
  -- The modules made so far. A module is never taken back.
  live : List ModuleHandle
  -- New indices are above all that were given out or asked for.
  highest : Nat

namespace ModuleMap

def start (definition : DefinitionId → ModuleDefinition) : ModuleMap := ⟨fun _ => none, definition, [], 0⟩

def noteIndex (map : ModuleMap) (index : ModuleIndex) : ModuleMap :=
  { map with highest := max map.highest index.value }

def setEntry (map : ModuleMap) (index : ModuleIndex) (module? : Option ModuleHandle) : ModuleMap :=
  { map.noteIndex index with entry := Function.update map.entry index module? }

def findByIndex (map : ModuleMap) (index : ModuleIndex) : Option ModuleHandle × ModuleMap :=
  if index.Fits then (map.entry index, map.noteIndex index) else (none, map)

def find (map : ModuleMap) (definition : DefinitionId) : Option ModuleHandle × ModuleMap :=
  if (map.definition definition).hasSlots then (none, map)
  else
    match (map.definition definition).index? with
    | some index => map.findByIndex index
    | none => (none, map)

def init (map : ModuleMap) (definition : DefinitionId) : Except UpcallError ModuleIndex × ModuleMap :=
  let found := map.definition definition
  match found.index? with
  | some index => (.ok index, map)
  | none =>
    let index : ModuleIndex := ⟨map.highest + 1, Nat.succ_pos _⟩
    if index.Fits then
      (.ok index, { map with
        definition := Function.update map.definition definition { found with rawIndex := index.value },
        highest := index.value })
    else (.error .indexSpaceExhausted, map)

def place (map : ModuleMap) (module : ModuleHandle) (index : ModuleIndex) :
    Except UpcallError (Option ModuleHandle) × ModuleMap :=
  let op := UpcallOp.addModuleByIndex
  if ¬ index.Fits then (.error (.invalidArgument op (.indexTooLarge index)), map)
  else if module ∉ map.live then (.error (.invalidArgument op .notLiveModule), map)
  else (.ok (map.entry index), map.setEntry index (some module))

def add (map : ModuleMap) (module : ModuleHandle) (definition : DefinitionId) :
    Except ApiError Unit × ModuleMap :=
  if (map.definition definition).hasSlots then (.error (.moduleHasSlots addModuleFunction), map)
  else
    match map.init definition with
    | (.error error, map) => (.error (.upcall error), map)
    | (.ok index, map) =>
      match map.place module index with
      | (.error error, map) => (.error (.upcall error), map)
      | (.ok previous?, map) =>
        if previous? = some module then (.error (.moduleAlreadyAdded index), map) else (.ok (), map)

-- A definition that could be in the registry needs an index here; the call is not made without.
def remove (map : ModuleMap) (definition : DefinitionId) : Except ApiError Unit × ModuleMap :=
  if (map.definition definition).hasSlots then (.error (.moduleHasSlots removeModuleFunction), map)
  else
    match (map.definition definition).index? with
    | none => (.ok (), map)
    | some index =>
      if index.Fits then (.ok (), map.setEntry index none)
      else (.error (.upcall (.invalidArgument .removeModuleByIndex (.indexTooLarge index))), map)

def reply (map : ModuleMap) : ModuleRequest → ModuleReply × ModuleMap
  | .find definition => (map.find definition).map (fun found => .found (.ok found)) id
  | .findByIndex index => (map.findByIndex index).map (fun found => .found (.ok found)) id
  | .init definition => (map.init definition).map .index id
  | .add module definition => (map.add module definition).map .status id
  | .remove definition => (map.remove definition).map .status id

end ModuleMap

end StateBridge
