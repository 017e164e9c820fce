import ObjectModel.Proofs.Isolation

/-! The depth of calls. Contexts hand it on: that of a body is one more than that of the context
its function is invoked in, and blocks keep it, so it counts the invocations that are active. It
stays within the limit of the runtime, since an invocation from the limit is refused before it does
anything. A fork starts from zero again, and what happens there is not counted here. -/
namespace ObjectModel

variable {β σ : Type}

end ObjectModel
