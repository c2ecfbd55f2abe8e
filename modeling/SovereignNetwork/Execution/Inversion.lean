import SovereignNetwork.Execution.Lemmas.Bands

/-!
# Minting inverts the cost

A mint returns the largest amount that the reserve pays for: within a band the bisection finds it from any estimate, and
the bands before are paid in full.
-/

namespace SovereignNetwork.Execution

open Lib

/-! ## The cost of a mint -/

section

variable {band : BondingCurveBand} {reserve sC : Nat}

end

section

variable {band : BondingCurveBand} {fuel remaining current minted : Nat}

end

end SovereignNetwork.Execution
