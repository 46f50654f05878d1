import GoIost.V8.Storage

namespace GoIost.V8

open Host

section HostCall

variable {Sandbox β α : Type} {owner : Option GoString} {op : Sandbox → Option GoString → β × Cost}
  {finish : β → UInt64 → Written α}

@[simp] theorem hostCall_none : hostCall none owner op finish = ⟨some .getSandbox, none, none⟩ :=
  rfl

theorem hostCall_some (s : Sandbox) :
    hostCall (some s) owner op finish =
      finish (op s (ownerArg owner)).1 (sizeT (op s (ownerArg owner)).2.cpu) :=
  rfl

end HostCall

-- On a stored value of a type `dbValToString` does not know, `goGet` returns the error while the
-- other getters hand the sandbox an empty string.
theorem getters_disagree_on_unknown_type {Sandbox : Type} (h : HostStorage Sandbox) (s : Sandbox)
    (contractName key field owner : Option GoString) (cost : Cost) :
    (h.get s (key.getD []) (ownerArg owner) = (some .other, cost) →
      goGet h (some s) key owner = ⟨some .invalidDbValType, some (sizeT cost.cpu), none⟩) ∧
    (h.mapGet s (key.getD []) (field.getD []) (ownerArg owner) = (some .other, cost) →
      goMapGet h (some s) key field owner = ⟨none, some (sizeT cost.cpu), some (some [])⟩) ∧
    (h.globalGet s (contractName.getD []) (key.getD []) (ownerArg owner) = (some .other, cost) →
      goGlobalGet h (some s) contractName key owner =
        ⟨none, some (sizeT cost.cpu), some (some [])⟩) ∧
    (h.globalMapGet s (contractName.getD []) (key.getD []) (field.getD []) (ownerArg owner) =
        (some .other, cost) →
      goGlobalMapGet h (some s) contractName key field owner =
        ⟨none, some (sizeT cost.cpu), some (some [])⟩) := by
  refine ⟨fun hv => ?_, fun hv => ?_, fun hv => ?_, fun hv => ?_⟩ <;>
    simp only [goGet, goMapGet, goGlobalGet, goGlobalMapGet, hostCall_some, hv] <;> rfl

end GoIost.V8
