import StateBridge.Proofs.Host.Service

set_option autoImplicit false

namespace StateBridge

namespace Host

variable {α β : Type} {thread : ThreadId}

-- An index that was noted before makes no difference to what such a step answers.
def Unnumbered (step : Host → Except Fault (α × Host)) : Prop :=
  ∀ (host : Host) (index : ModuleIndex), step (host.noteIndex index) =
    (step host).map fun (result, after) => (result, after.noteIndex index)

theorem Unnumbered.bind {first : Host → Except Fault (α × Host)} (one : Unnumbered first)
    {next : α × Host → Except Fault (β × Host)}
    (rest : ∀ result, Unnumbered fun host => next (result, host)) :
    Unnumbered fun host => first host >>= next := by
  intro host index
  simp only [one host index]
  cases first host with
  | error broken => rfl
  | ok made => exact rest made.1 made.2 index

theorem Unnumbered.told {step : Host → Except Fault (α × Host)} (unnumbered : Unnumbered step)
    (present : α → β) :
    Unnumbered fun host => step host >>= fun (result, host) => return (present result, host) :=
  unnumbered.bind fun _ _ _ => rfl

end Host

end StateBridge
