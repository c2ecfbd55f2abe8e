import SovereignNetwork.Engine.Votes

/-!
# The vote pool as a set of votes

A count of the engine is the number of pool keys that hold a matching vote.
-/

namespace SovereignNetwork.Engine

open Lib

namespace EngineState

variable {s s' : EngineState} {t : VoteType} {h r : Nat} {inRound : Nat → Bool} {pid : Hash} {id : IdentityId}

/-- The pool holds a vote of the validator for the proposal. -/
def Holds (s : EngineState) (t : VoteType) (h r : Nat) (id : IdentityId) (pid : Hash) : Prop :=
  ∃ vote, s.votePool.lookup ⟨h, r, t, id⟩ = some (vote, pid)

def voteKeys (s : EngineState) (t : VoteType) (h : Nat) (inRound : Nat → Bool) (pid : Hash) : Finset VotePoolKey :=
  ((s.votePool.entries.filter fun e =>
    e.1.height == h && inRound e.1.round && e.1.voteType == t && e.2.2 == pid).map Sigma.fst).toFinset

def voters (s : EngineState) (t : VoteType) (h : Nat) (inRound : Nat → Bool) (pid : Hash) : Finset IdentityId :=
  (s.voteKeys t h inRound pid).image VotePoolKey.validatorId

theorem mem_voteKeys {k : VotePoolKey} :
    k ∈ s.voteKeys t h inRound pid ↔
      k.height = h ∧ inRound k.round = true ∧ k.voteType = t ∧ ∃ vote, s.votePool.lookup k = some (vote, pid) := by
  simp only [voteKeys, List.mem_toFinset, List.mem_map, List.mem_filter, Bool.and_eq_true, beq_iff_eq]
  constructor
  · rintro ⟨⟨k, vote, pid'⟩, ⟨hmem, ⟨⟨hh, hr⟩, ht⟩, hp⟩, rfl⟩
    simp only at hh hr ht hp
    subst hp
    exact ⟨hh, hr, ht, vote, HashMap.mem_entries_iff.mp hmem⟩
  · rintro ⟨hh, hr, ht, vote, hl⟩
    exact ⟨⟨k, vote, pid⟩, ⟨HashMap.mem_entries_iff.mpr hl, ⟨⟨hh, hr⟩, ht⟩, rfl⟩, rfl⟩

theorem countVotes_eq_card : s.countVotes t h inRound pid = (s.voteKeys t h inRound pid).card := by
  have hnd : ((s.votePool.entries.filter fun e =>
      e.1.height == h && inRound e.1.round && e.1.voteType == t && e.2.2 == pid).map Sigma.fst).Nodup :=
    List.Nodup.sublist (List.filter_sublist.map _) s.votePool.nodupKeys
  rw [voteKeys, List.toFinset_card_of_nodup hnd, List.length_map, countVotes, List.countP_eq_length_filter]

theorem mem_voters :
    id ∈ s.voters t h inRound pid ↔ ∃ r, inRound r = true ∧ s.Holds t h r id pid := by
  simp only [voters, Finset.mem_image, mem_voteKeys]
  constructor
  · rintro ⟨⟨h', r, t', id'⟩, ⟨rfl, hr, rfl, hl⟩, rfl⟩
    exact ⟨r, hr, hl⟩
  · rintro ⟨r, hr, hl⟩
    exact ⟨⟨h, r, t, id⟩, ⟨rfl, hr, rfl, hl⟩, rfl⟩

theorem countVotes_le (hs : ∀ r id, inRound r = true → s.Holds t h r id pid → s'.Holds t h r id pid) :
    s.countVotes t h inRound pid ≤ s'.countVotes t h inRound pid := by
  rw [countVotes_eq_card, countVotes_eq_card]
  refine Finset.card_le_card fun k hk => ?_
  obtain ⟨h', r, t', id⟩ := k
  obtain ⟨rfl, hr, rfl, hl⟩ := mem_voteKeys.mp hk
  exact mem_voteKeys.mpr ⟨rfl, hr, rfl, hs r id hr hl⟩

/-- Every validator has votes of the type for the proposal in one round of the height only. -/
def SingleRound (s : EngineState) (t : VoteType) (h : Nat) (pid : Hash) : Prop :=
  ∀ id r r', s.Holds t h r id pid → s.Holds t h r' id pid → r = r'

instance : Decidable (s.SingleRound t h pid) :=
  decidable_of_iff (∀ k ∈ s.voteKeys t h (fun _ => true) pid, ∀ k' ∈ s.voteKeys t h (fun _ => true) pid,
    k.validatorId = k'.validatorId → k.round = k'.round) (by
      constructor
      · intro hall id r r' hr hr'
        exact hall ⟨h, r, t, id⟩ (mem_voteKeys.mpr ⟨rfl, rfl, rfl, hr⟩) ⟨h, r', t, id⟩
          (mem_voteKeys.mpr ⟨rfl, rfl, rfl, hr'⟩) rfl
      · rintro hs ⟨h1, r1, t1, id1⟩ hk1 ⟨h2, r2, t2, id2⟩ hk2 heq
        obtain ⟨rfl, -, rfl, hl1⟩ := mem_voteKeys.mp hk1
        obtain ⟨rfl, -, rfl, hl2⟩ := mem_voteKeys.mp hk2
        obtain rfl : id1 = id2 := heq
        exact hs id1 r1 r2 hl1 hl2)

theorem card_voters_of_injOn
    (hinj : ∀ id r r', inRound r = true → inRound r' = true → s.Holds t h r id pid → s.Holds t h r' id pid → r = r') :
    (s.voters t h inRound pid).card = s.countVotes t h inRound pid := by
  rw [countVotes_eq_card]
  refine Finset.card_image_of_injOn ?_
  rintro ⟨h1, r1, t1, id1⟩ hk1 ⟨h2, r2, t2, id2⟩ hk2 heq
  obtain ⟨rfl, hr1, rfl, hl1⟩ := mem_voteKeys.mp hk1
  obtain ⟨rfl, hr2, rfl, hl2⟩ := mem_voteKeys.mp hk2
  obtain rfl : id1 = id2 := heq
  obtain rfl : r1 = r2 := hinj id1 r1 r2 hr1 hr2 hl1 hl2
  rfl

theorem SingleRound.card_voters (hs : s.SingleRound t h pid) :
    (s.voters t h inRound pid).card = s.countVotes t h inRound pid :=
  card_voters_of_injOn fun id r r' _ _ hl hl' => hs id r r' hl hl'

theorem card_voters_of_round : (s.voters t h (· == r) pid).card = s.countVotes t h (· == r) pid := by
  refine card_voters_of_injOn ?_
  intro id r1 r2 h1 h2 _ _
  exact (beq_iff_eq.mp h1).trans (beq_iff_eq.mp h2).symm

theorem mem_voters_of_round : id ∈ s.voters t h (· == r) pid ↔ s.Holds t h r id pid := by
  rw [mem_voters]
  constructor
  · rintro ⟨r', hr, hl⟩
    obtain rfl := beq_iff_eq.mp hr
    exact hl
  · intro hl
    exact ⟨r, beq_self_eq_true r, hl⟩

end EngineState

end SovereignNetwork.Engine
