import StateBridge.Upcall.Operation

set_option autoImplicit false

namespace StateBridge

structure Tally where
  calls : UInt64
  failures : UInt64
  deriving DecidableEq, Repr, Inhabited

structure UpcallStats where
  tallies : Vector Tally 6
  deriving DecidableEq, Repr

namespace UpcallStats

def zero : UpcallStats := ⟨Vector.replicate _ ⟨0, 0⟩⟩

instance : Inhabited UpcallStats := ⟨zero⟩

def tally (stats : UpcallStats) (op : UpcallOp) : Tally := stats.tallies[op.position]

def calls (stats : UpcallStats) (op : UpcallOp) : UInt64 := (stats.tally op).calls

def failures (stats : UpcallStats) (op : UpcallOp) : UInt64 := (stats.tally op).failures

def hit (stats : UpcallStats) (op : UpcallOp) (succeeded : Bool) : UpcallStats :=
  let before := stats.tally op
  let after : Tally := ⟨before.calls + 1, before.failures + if succeeded then 0 else 1⟩
  ⟨stats.tallies.set op.position after⟩

def total (stats : UpcallStats) : UInt64 := (UpcallOp.all.map stats.calls).foldl (· + ·) 0

def snapshot (stats : UpcallStats) : List (UpcallOp × UInt64 × UInt64) :=
  (UpcallOp.all.filter fun op => 0 < stats.calls op).map fun op =>
    (op, stats.calls op, stats.failures op)

@[simp] theorem tally_zero (op : UpcallOp) : zero.tally op = ⟨0, 0⟩ := by
  simp [zero, tally]

theorem tally_hit (stats : UpcallStats) (op other : UpcallOp) (succeeded : Bool) :
    (stats.hit op succeeded).tally other =
      if other = op then
        ⟨stats.calls op + 1, stats.failures op + if succeeded then 0 else 1⟩
      else stats.tally other := by
  split
  next same => subst same; simp [hit, tally, calls, failures]
  next differ =>
    have apart : op.position.val ≠ other.position.val := fun same =>
      differ (UpcallOp.position_injective (Fin.ext same.symm))
    simp [hit, tally, Vector.getElem_set_ne, apart]

end UpcallStats

end StateBridge
