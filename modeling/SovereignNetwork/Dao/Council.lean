import SovereignNetwork.Dao.Blockchain
import SovereignNetwork.Dao.OneVote

/-!
# The council's thresholds

Both places where the council decides count the entries of a list that belong to members: the signatures of an emergency
activation, and the Yes votes of a proposal in the first phase.
-/

namespace SovereignNetwork.Dao

open Lib Execution

variable {bc : Blockchain}

namespace Blockchain

end Blockchain

end SovereignNetwork.Dao
