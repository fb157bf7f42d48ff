import DepthFeed.Event

/-!
# Which instruments a consumer wants

An `Interest` selects the events that a consumer is given, by their instrument.
-/

namespace DepthFeed

/-- The instruments that a consumer is given events of. -/
inductive Interest where
  | all
  | only (instrument : Instrument)
  | oneOf (instruments : List Instrument)
deriving DecidableEq, Repr

namespace Interest

/-- The interest in a collection of instruments, each of them once. -/
def ofList (instruments : List Instrument) : Interest := .oneOf instruments.eraseDups

def Covers (interest : Interest) (instrument : Instrument) : Prop :=
  match interest with
  | .all => True
  | .only wanted => wanted = instrument
  | .oneOf wanted => instrument ∈ wanted

instance (interest : Interest) (instrument : Instrument) :
    Decidable (interest.Covers instrument) := by
  cases interest <;> unfold Covers <;> infer_instance

def describe : Interest → String
  | .all => "All"
  | .only wanted => "Only(" ++ idText wanted ++ ")"
  | .oneOf wanted => "Set(\x7b" ++ ", ".intercalate (wanted.map idText) ++ "\x7d)"
where
  idText (instrument : Instrument) : String := "InstrumentId(" ++ instrument.text ++ ")"

end Interest

end DepthFeed
