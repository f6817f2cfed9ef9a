import Pysnmp.Proto.RequestRecords

/-!
# The state of the applications

What the dispatcher and the models do leaves the state of the applications alone, up to the point
where one of them is called back.
-/

set_option autoImplicit false
set_option relaxedAutoImplicit false

namespace Pysnmp.Proto.ApplicationState

open Foundation Foundation.Effect Mpmod.MessageProcessing Dispatcher

variable {κ α : Type}

/-- The state of the application is the same before and after. -/
def SameApp (before after : Engine κ α) : Prop :=
  after.app = before.app

instance : Std.Refl (SameApp (κ := κ) (α := α)) :=
  ⟨fun _ ↦ rfl⟩

instance : IsTrans (Engine κ α) SameApp :=
  ⟨fun _ _ _ hfirst hsecond ↦ Eq.trans hsecond hfirst⟩

theorem sameApp_onModel {β : Type} (modelId : ModelId) (operation : ModelOp β) :
    Keeps (SameApp (κ := κ) (α := α)) (onModel modelId operation) :=
  fun _ ↦ rfl

theorem sameApp_dropFromCache (index : ℕ) :
    Keeps (SameApp (κ := κ) (α := α)) (dropFromCache index) :=
  fun _ ↦ rfl

theorem sameApp_updateCache (index : ℕ) (peer : Peer) :
    Keeps (SameApp (κ := κ) (α := α)) (updateCache index peer) := by
  refine (keeps_gets _).bind fun entry ↦ ?_
  cases entry with
  | none => exact keeps_raise _
  | some _ => exact keeps_modify fun _ ↦ rfl

theorem sameApp_sendPdu (config : EngineConfig) (arguments : SendArguments κ)
    (world : SendWorld κ α) : Keeps SameApp (sendPdu config arguments world) := by
  unfold sendPdu
  cases config.mpHandler arguments.messageProcessingModel with
  | none => exact keeps_raise _
  | some modelId =>
    refine keeps_get.bind fun engine ↦ Keeps.bind ?_ fun _ ↦ Keeps.bind ?_ fun _ ↦
      Keeps.bind ?_ fun _ ↦ (sameApp_updateCache _ _).runIf.bind fun _ ↦ keeps_pure _
    · unfold noteRequest
      refine Keeps.ite (Keeps.ite ?_ (keeps_raise _)) (keeps_pure _)
      exact (keeps_gets _).bind fun _ ↦ keeps_modify fun _ ↦ rfl
    · refine (sameApp_onModel _ _).handle fun _ ↦ Keeps.bind (Keeps.runIf ?_) fun _ ↦ keeps_raise _
      exact (sameApp_dropFromCache _).bind fun _ ↦
        (sameApp_onModel _ _).runIf.bind fun _ ↦ sameApp_dropFromCache _
    · unfold transmit
      refine Keeps.ite ((sameApp_dropFromCache _).runIf.bind fun _ ↦ keeps_raise _) ?_
      cases world.sendMessage with
      | none => exact keeps_pure _
      | some _ => exact (sameApp_dropFromCache _).runIf.bind fun _ ↦ keeps_raise _

end Pysnmp.Proto.ApplicationState
