namespace EulerFlow

/-- What a run hands over: the column names once, then the rows one by one. -/
inductive Delivery where
  | header (columns : List String)
  | row (values : List Float)
deriving DecidableEq

/-- Why a delivery was not accepted. -/
structure Refusal where
  reason : String
deriving DecidableEq

/-- The receiver takes no more calls. -/
def Refusal.sinkFull : Refusal := ⟨"sink full"⟩

/-- The writer takes no more bytes. -/
def Refusal.writerFull : Refusal := ⟨"writer full"⟩

/-- Something that takes the table of a run. A refused delivery may still change it. -/
class Receiver (σ : Type) where
  receive : σ → Delivery → σ × Option Refusal

end EulerFlow
