import Mathlib.Data.Finset.Basic

/-!
# Voting with locks

Voters prevote and precommit values in rounds. A correct voter prevotes one value in a round, precommits only what a
quorum prevoted in the round, and after a precommit prevotes another value only if a quorum has prevoted that value
in a round in between. Then no two values are precommitted by quorums, whatever the rounds.
-/

namespace SovereignNetwork.Lib

variable {V P : Type}

/-- Any two quorums share a correct voter. -/
structure QuorumSystem (V : Type) where
  IsQuorum : Finset V → Prop
  Correct : V → Prop
  inter : ∀ {A B}, IsQuorum A → IsQuorum B → ∃ v, Correct v ∧ v ∈ A ∧ v ∈ B

namespace QuorumSystem

variable {Q : QuorumSystem V} {f g : V → Prop}

/-- The correct voters of some quorum have all voted. -/
def Backed (Q : QuorumSystem V) (f : V → Prop) : Prop := ∃ A, Q.IsQuorum A ∧ ∀ v ∈ A, Q.Correct v → f v

theorem Backed.inter (hf : Q.Backed f) (hg : Q.Backed g) : ∃ v, Q.Correct v ∧ f v ∧ g v := by
  obtain ⟨A, hA, hfA⟩ := hf
  obtain ⟨B, hB, hgB⟩ := hg
  obtain ⟨v, hv, hvA, hvB⟩ := Q.inter hA hB
  exact ⟨v, hv, hfA v hvA hv, hgB v hvB hv⟩

theorem Backed.exists_correct (hf : Q.Backed f) : ∃ v, Q.Correct v ∧ f v := by
  obtain ⟨v, hv, hfv, -⟩ := hf.inter hf
  exact ⟨v, hv, hfv⟩

end QuorumSystem

structure LockedVoting (Q : QuorumSystem V) (prevote precommit : V → ℕ → P → Prop) : Prop where
  unique : ∀ {v r p q}, Q.Correct v → prevote v r p → prevote v r q → p = q
  backed : ∀ {v r p}, Q.Correct v → precommit v r p → Q.Backed (prevote · r p)
  locked : ∀ {v r r' p q}, Q.Correct v → precommit v r p → prevote v r' q → r < r' →
    p = q ∨ ∃ r'', r < r'' ∧ r'' < r' ∧ Q.Backed (prevote · r'' q)

namespace LockedVoting

variable {Q : QuorumSystem V} {prevote precommit : V → ℕ → P → Prop} {r r' : ℕ} {p q : P}

theorem prevoted_unique (h : LockedVoting Q prevote precommit) (hp : Q.Backed (prevote · r p))
    (hq : Q.Backed (prevote · r q)) : p = q := by
  obtain ⟨v, hv, hvp, hvq⟩ := hp.inter hq
  exact h.unique hv hvp hvq

theorem prevoted_eq_of_precommitted (h : LockedVoting Q prevote precommit) (hp : Q.Backed (precommit · r p))
    (hq : Q.Backed (prevote · r' q)) (hle : r ≤ r') : p = q := by
  induction r' using Nat.strong_induction_on with
  | _ r' ih =>
    obtain ⟨v, hv, hvp, hvq⟩ := hp.inter hq
    rcases Nat.eq_or_lt_of_le hle with rfl | hlt
    · exact h.prevoted_unique (h.backed hv hvp) hq
    · rcases h.locked hv hvp hvq hlt with heq | ⟨r'', hr, hr', hq''⟩
      · exact heq
      · exact ih r'' hr' hq'' (Nat.le_of_lt hr)

theorem agreement (h : LockedVoting Q prevote precommit) (hp : Q.Backed (precommit · r p))
    (hq : Q.Backed (precommit · r' q)) : p = q := by
  obtain ⟨v, hv, hvp⟩ := hp.exists_correct
  obtain ⟨v', hv', hvq⟩ := hq.exists_correct
  rcases Nat.le_total r r' with hle | hle
  · exact h.prevoted_eq_of_precommitted hp (h.backed hv' hvq) hle
  · exact (h.prevoted_eq_of_precommitted hq (h.backed hv hvp) hle).symm

end LockedVoting

end SovereignNetwork.Lib
