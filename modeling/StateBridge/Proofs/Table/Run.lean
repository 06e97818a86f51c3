import StateBridge.Proofs.Table.Invariant

set_option autoImplicit false

namespace StateBridge

namespace HandleTable

variable {α : Type} {table : HandleTable α}

inductive Call (α : Type) where
  | insert (kind : HandleKind) (value : α)
  | get (handle : Handle)
  -- A borrowed value can be written over before it is given back.
  | access (handle : Handle) (written? : Option α)
  | contains (handle : Handle)
  | remove (handle : Handle)
  | size
  | isEmpty

inductive Answer (α : Type) where
  | issued (handle : Handle)
  | value (value? : Option α)
  | flag (value : Bool)
  | count (number : Nat)
  | fault (fault : Fault)
  deriving DecidableEq

def step (table : HandleTable α) : Call α → Answer α × HandleTable α
  | .insert kind value =>
    match table.insert kind value with
    | .ok (handle, after) => (.issued handle, after)
    | .error fault => (.fault fault, table)
  | .get handle => (.value (table.get? handle), table)
  | .access handle none => (.value (table.get? handle), table)
  | .access handle (some written) => (.value (table.get? handle), table.set handle written)
  | .contains handle => (.flag (table.contains handle), table)
  | .remove handle =>
    match table.remove handle with
    | .ok (value?, after) => (.value value?, after)
    | .error fault => (.fault fault, table)
  | .size => (.count table.size, table)
  | .isEmpty => (.flag table.isEmpty, table)

def run : HandleTable α → List (Call α) → List (Answer α) × HandleTable α
  | table, [] => ([], table)
  | table, call :: rest =>
    let (answer, next) := table.step call
    let (answers, last) := next.run rest
    (answer :: answers, last)

theorem run_append (table : HandleTable α) (first second : List (Call α)) :
    (table.run (first ++ second)).2 = ((table.run first).2.run second).2 := by
  induction first generalizing table with
  | nil => rfl
  | cons call rest ih => exact ih _

theorem Sound.step (sound : table.Sound) (call : Call α) : (table.step call).2.Sound := by
  cases call with
  | insert kind value =>
    cases stored : table.insert kind value with
    | error fault => simpa only [HandleTable.step, stored] using sound
    | ok result => simpa only [HandleTable.step, stored] using sound.insert stored
  | access handle written? =>
    cases written? with
    | none => exact sound
    | some written => exact sound.set handle written
  | remove handle =>
    obtain ⟨after, removed, sound, -⟩ := sound.remove handle
    simpa only [HandleTable.step, removed] using sound
  | get | contains | size | isEmpty => exact sound

theorem Sound.run (sound : table.Sound) (calls : List (Call α)) : (table.run calls).2.Sound := by
  induction calls generalizing table with
  | nil => exact sound
  | cons call rest ih => exact ih (sound.step call)

end HandleTable

end StateBridge
