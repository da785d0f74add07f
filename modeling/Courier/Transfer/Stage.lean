/-!
# Stages of a transfer

The four stages through which the host's side of a block transfer goes.
-/

namespace Courier

/-- How far the host's side of a transfer has come. -/
inductive Stage
  | sending
  | awaitingPeer
  | done
  | failed
  deriving DecidableEq, Repr

def Stage.name : Stage → String
  | .sending => "Sending"
  | .awaitingPeer => "AwaitingPeer"
  | .done => "Done"
  | .failed => "Failed"

end Courier
