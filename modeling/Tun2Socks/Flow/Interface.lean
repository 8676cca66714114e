import Mathlib

/-!
# The interfaces between flow objects

`PacketPassInterface`, `PacketRecvInterface`, `StreamPassInterface` and `StreamRecvInterface` are
one piece of code under four names. A user of such an interface starts an operation, a job hands it
to the provider, the provider reports when it is done, and a second job tells the user. There is one
operation at a time: starting one needs the state `none`, finishing one the state `busy`.

The types of the operation (a place and a length, or a packet) and of its result (nothing, or a
length) tell the four apart.
-/

namespace Tun2Socks.Flow

/-- `state`, with what the jobs are to hand over. -/
inductive Interface (Op Res : Type)
  | none
  | operationPending (op : Op)
  | busy (op : Op)
  | donePending (res : Res)
  deriving DecidableEq

namespace Interface

variable {Op Res : Type}

/-- The provider has the operation and is not done with it. -/
def IsBusy : Interface Op Res → Prop
  | .busy _ => True
  | _ => False

instance : ∀ i : Interface Op Res, Decidable i.IsBusy
  | .busy _ => inferInstanceAs (Decidable True)
  | .none | .operationPending _ | .donePending _ => inferInstanceAs (Decidable False)

/-- The operation has been started and the provider is not done with it. -/
def Started (i : Interface Op Res) (op : Op) : Prop := i = .operationPending op ∨ i = .busy op

theorem Started.inj {i : Interface Op Res} {op op' : Op} (h : i.Started op) (h' : i.Started op') :
    op = op' := by
  obtain rfl | rfl := h <;> obtain h' | h' := h' <;> cases h' <;> rfl

@[simp] theorem not_started_none (op : Op) : ¬ (none : Interface Op Res).Started op := nofun

@[simp] theorem not_started_donePending (res : Res) (op : Op) :
    ¬ (donePending res : Interface Op Res).Started op := nofun

end Interface

end Tun2Socks.Flow
