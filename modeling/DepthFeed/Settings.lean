import DepthFeed.Book.Basic

/-!
# Settings of a pipeline

`Settings` names the capacities, the publication of books and the rules of a pipeline.
`Settings.validate` gives the first thing that is wrong with them.
-/

namespace DepthFeed

/-- What becomes of events still in the ring when the loop is stopped. -/
inductive ShutdownRule where
  | drain
  | discard
deriving DecidableEq, Repr

inductive SettingsError where
  | ringCapacity (capacity : UInt64)
  | alertCapacity
  | publishDepth
deriving DecidableEq, Repr

def SettingsError.message : SettingsError → String
  | .ringCapacity capacity =>
    "ring_capacity must be a non-zero power of two, got " ++ toString capacity.toNat
  | .alertCapacity => "gap_alert_capacity must be non-zero"
  | .publishDepth => "snapshot_depth must be non-zero"

structure Settings where
  ringCapacity : UInt64
  alertCapacity : UInt64
  publishDepth : UInt64
  publishInterval : UInt64
  tradeRule : TradeRule
  shutdownRule : ShutdownRule
deriving DecidableEq, Repr

namespace Settings

/-- The settings of a pipeline where nothing is said. -/
def standard : Settings where
  ringCapacity := 65536
  alertCapacity := 1024
  publishDepth := 20
  publishInterval := 100
  tradeRule := .countOnly
  shutdownRule := .drain

/-- The first thing that is wrong with the settings, if anything is. -/
def validate (s : Settings) : Except SettingsError Unit :=
  if ¬ s.ringCapacity.toNat.isPowerOfTwo then .error (.ringCapacity s.ringCapacity)
  else if s.alertCapacity = 0 then .error .alertCapacity
  else if s.publishDepth = 0 then .error .publishDepth
  else .ok ()

end Settings

end DepthFeed
