import Bento.Network.Subnet
import Bento.Store.Basic

/-! The errors of the lifecycle manager, and what they were caused by. -/

namespace Bento.Lifecycle

inductive Cause where
  | network (error : Network.Error)
  | store (error : Store.Error)
  | machine (message : String)
deriving DecidableEq

inductive Error where
  | nestedUnavailable (message : String)
  | diskShrink (message : String)
  | noImageVersion (imageName : String)
  | fleetImageNotReady (imageName missing : String)
  | noSlotForHost (hostId : Int)
  | copySourceRunning (message : String)
  | copyAcrossMachines (message : String)
  | renameNeedsStop (message : String)
  | operation (message : String)
  | caused (source : Cause)
deriving DecidableEq

end Bento.Lifecycle
