import EulerFlow.Table.Delivery

namespace EulerFlow

/-- A receiver behind a counter: after so many deliveries every further one is refused
and does not reach it. -/
structure Limited (σ : Type) where
  receiver : σ
  remaining : Nat

instance {σ : Type} [Receiver σ] : Receiver (Limited σ) where
  receive limited delivery :=
    match limited with
    | ⟨receiver, 0⟩ => (⟨receiver, 0⟩, some .sinkFull)
    | ⟨receiver, remaining + 1⟩ =>
      let (receiver, refusal) := Receiver.receive receiver delivery
      (⟨receiver, remaining⟩, refusal)

end EulerFlow
