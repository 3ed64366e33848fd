import Abacus.Machine.Feed
import Abacus.Machine.Sink

/-! Input and output side by side. -/

namespace Abacus

/-- An input and an output that know nothing of each other. -/
structure Channels (ρ σ : Type) where
  feed : ρ
  sink : σ

namespace Channels

variable {ρ σ α : Type}

/-- Does something with the input. -/
def onFeed (act : EStateM String ρ α) : EStateM String (Channels ρ σ) α := fun c =>
  match act c.feed with
  | .ok a feed => .ok a { c with feed }
  | .error message feed => .error message { c with feed }

/-- Does something with the output. -/
def onSink (act : EStateM String σ α) : EStateM String (Channels ρ σ) α := fun c =>
  match act c.sink with
  | .ok a sink => .ok a { c with sink }
  | .error message sink => .error message { c with sink }

instance [Intake ρ] : Intake (Channels ρ σ) := ⟨onFeed Intake.readWord⟩

instance [Sink σ] : Sink (Channels ρ σ) := ⟨fun text => onSink (Sink.write text), onSink Sink.flush⟩

end Channels

end Abacus
