import SovereignNetwork.Lib.Except
import SovereignNetwork.Lib.KeyedStore

/-!
# Programs over a keyed store

A program is a tree of reads and writes. `exec` runs it over a plain map, where each read returns the latest write.
`stage` runs it over a store that collects the writes in a batch, where a read sees what the store's `view` makes of the
committed and of the latest value.
-/

namespace SovereignNetwork.Lib

variable {K : Type} {V : K → Type} {ε ε' α β : Type}

inductive Prog (V : K → Type) (ε α : Type) where
  | pure (a : α)
  | fail (e : ε)
  | read (k : K) (next : Option (V k) → Prog V ε α)
  | write (k : K) (v : Option (V k)) (next : Prog V ε α)
  /-- Is there an entry that satisfies `p`? -/
  | scan (p : (k : K) → V k → Bool) (next : Bool → Prog V ε α)

/-- What a read of a key returns, from the committed value and from the latest one. -/
abbrev View (V : K → Type) := (k : K) → Option (V k) → Option (V k) → Option (V k)

namespace Prog

def bind : Prog V ε α → (α → Prog V ε β) → Prog V ε β
  | pure a, f => f a
  | fail e, _ => fail e
  | read k next, f => read k fun v => (next v).bind f
  | write k v next, f => write k v (next.bind f)
  | scan p next, f => scan p fun b => (next b).bind f

instance : Monad (Prog V ε) where
  pure := pure
  bind := bind

def get (k : K) : Prog V ε (Option (V k)) := read k pure

def put (k : K) (v : V k) : Prog V ε Unit := write k (some v) (pure ())

def delete (k : K) : Prog V ε Unit := write k none (pure ())

def exists? (p : (k : K) → V k → Bool) : Prog V ε Bool := scan p pure

def ofExcept : Except ε α → Prog V ε α
  | .ok a => pure a
  | .error e => fail e

def mapError (f : ε → ε') : Prog V ε α → Prog V ε' α
  | pure a => pure a
  | fail e => fail (f e)
  | read k next => read k fun v => (next v).mapError f
  | write k v next => write k v (next.mapError f)
  | scan p next => scan p fun b => (next b).mapError f

/-- Simplified before the continuation, which would otherwise be simplified at every check of a program. -/
@[simp ↓] theorem fail_bind (e : ε) (f : α → Prog V ε β) : (fail e >>= f) = fail e := rfl

/-! ## The two ways to run a program -/

def anyEntry (p : (k : K) → V k → Bool) (m : AList V) : Bool := m.entries.any fun e => p e.1 e.2

variable [DecidableEq K]

/-- Runs over a plain map. -/
def exec : Prog V ε α → AList V → Except ε (α × AList V)
  | pure a, m => .ok (a, m)
  | fail e, _ => .error e
  | read k next, m => (next (m.lookup k)).exec m
  | write k v next, m => next.exec (setKey m k v)
  | scan p next, m => (next (anyEntry p m)).exec m

/-- Runs over the committed store `s`, with the writes in a batch. A scan sees the committed entries. -/
def stage (view : View V) (s : AList V) : Prog V ε α → Batch V → Except ε (α × Batch V)
  | pure a, b => .ok (a, b)
  | fail e, _ => .error e
  | read k next, b => (next (view k (s.lookup k) (latest s b k))).stage view s b
  | write k v next, b => next.stage view s (b.insert k v)
  | scan p next, b => (next (anyEntry p s)).stage view s b

variable {view : View V} {s : AList V}

theorem stage_bind (p : Prog V ε α) (f : α → Prog V ε β) (b : Batch V) :
    (p.bind f).stage view s b = p.stage view s b >>= fun r => (f r.1).stage view s r.2 := by
  induction p generalizing b with
  | pure a => rfl
  | fail e => rfl
  | read k next ih => exact ih _ b
  | write k v next ih => exact ih _
  | scan p next ih => exact ih _ b

@[simp] theorem stage_bind_eq_ok {p : Prog V ε α} {f : α → Prog V ε β} {b : Batch V} {r : β × Batch V} :
    (p >>= f).stage view s b = .ok r ↔ ∃ a b', p.stage view s b = .ok (a, b') ∧ (f a).stage view s b' = .ok r :=
  (stage_bind p f b ▸ bind_eq_ok).trans Prod.exists

@[simp] theorem stage_pure (a : α) (b : Batch V) : (Pure.pure a : Prog V ε α).stage view s b = .ok (a, b) := rfl

@[simp] theorem stage_fail (e : ε) (b : Batch V) : (fail e : Prog V ε α).stage view s b = .error e := rfl

@[simp] theorem stage_get (k : K) (b : Batch V) :
    (get k : Prog V ε (Option (V k))).stage view s b = .ok (view k (s.lookup k) (latest s b k), b) := rfl

@[simp] theorem stage_put (k : K) (v : V k) (b : Batch V) :
    (put k v : Prog V ε Unit).stage view s b = .ok ((), b.insert k (some v)) := rfl

@[simp] theorem stage_delete (k : K) (b : Batch V) :
    (delete k : Prog V ε Unit).stage view s b = .ok ((), b.insert k none) := rfl

@[simp] theorem stage_ite_eq_ok {c : Prop} [Decidable c] {p q : Prog V ε α} {b : Batch V} {r : α × Batch V} :
    (if c then p else q).stage view s b = .ok r ↔
      c ∧ p.stage view s b = .ok r ∨ ¬ c ∧ q.stage view s b = .ok r := by
  by_cases hc : c <;> simp [hc]

@[simp] theorem stage_ofExcept_eq_ok {x : Except ε α} {b : Batch V} {r : α × Batch V} :
    (ofExcept x : Prog V ε α).stage view s b = .ok r ↔ x = .ok r.1 ∧ b = r.2 := by
  cases x with
  | ok a => simp [ofExcept, stage, Prod.ext_iff]
  | error e => simp [ofExcept]

@[simp] theorem stage_mapError_eq_ok {f : ε → ε'} {p : Prog V ε α} {b : Batch V} {r : α × Batch V} :
    (p.mapError f).stage view s b = .ok r ↔ p.stage view s b = .ok r := by
  induction p generalizing b with
  | pure a => simp [mapError, stage]
  | fail e => simp [mapError, stage]
  | read k next ih => exact ih _
  | write k v next ih => exact ih
  | scan p next ih => exact ih _

/-! ## Programs that only read -/

/-- No branch of the program writes. -/
def ReadOnly : Prog V ε α → Prop
  | pure _ => True
  | fail _ => True
  | read _ next => ∀ v, (next v).ReadOnly
  | write _ _ _ => False
  | scan _ next => ∀ b, (next b).ReadOnly

omit [DecidableEq K] in
theorem ReadOnly.bind {p : Prog V ε α} {f : α → Prog V ε β} (hp : p.ReadOnly) (hf : ∀ a, (f a).ReadOnly) :
    (p.bind f).ReadOnly := by
  induction p with
  | pure a => exact hf a
  | fail e => trivial
  | read k next ih => exact fun v => ih v (hp v)
  | write k v next ih => exact hp.elim
  | scan p next ih => exact fun b => ih b (hp b)

omit [DecidableEq K] in
theorem ReadOnly.ofExcept (x : Except ε α) : (ofExcept x : Prog V ε α).ReadOnly := by
  cases x with
  | ok a => trivial
  | error e => trivial

omit [DecidableEq K] in
theorem ReadOnly.get (k : K) : (get k : Prog V ε (Option (V k))).ReadOnly := fun _ => trivial

theorem ReadOnly.batch_eq {p : Prog V ε α} (hp : p.ReadOnly) {b b' : Batch V} {a : α}
    (h : p.stage view s b = .ok (a, b')) : b' = b := by
  induction p with
  | pure a => exact (congrArg Prod.snd (Except.ok.inj h)).symm
  | fail e => cases h
  | read k next ih => exact ih _ (hp _) h
  | write k v next ih => exact hp.elim
  | scan p next ih => exact ih _ (hp _) h

/-! ## What a program may write -/

/-- Over the store `s`, whatever the batch holds: each write satisfies `W`, and a result satisfies `Q`. -/
def Ensures (view : View V) (s : AList V) (W : (k : K) → Option (V k) → Prop) (Q : α → Prop) : Prog V ε α → Prop
  | pure a => Q a
  | fail _ => True
  | read k next => ∀ v, (next (view k (s.lookup k) v)).Ensures view s W Q
  | write k v next => W k v ∧ next.Ensures view s W Q
  | scan p next => (next (anyEntry p s)).Ensures view s W Q

section

variable {W W' : (k : K) → Option (V k) → Prop} {Q Q' : α → Prop}

theorem Ensures.mono {p : Prog V ε α} (hW : ∀ k v, W k v → W' k v) (hQ : ∀ a, Q a → Q' a)
    (hp : p.Ensures view s W Q) : p.Ensures view s W' Q' := by
  induction p with
  | pure a => exact hQ a hp
  | fail e => trivial
  | read k next ih => exact fun v => ih _ (hp v)
  | write k v next ih => exact ⟨hW k v hp.1, ih hp.2⟩
  | scan p next ih => exact ih _ hp

@[simp] theorem ensures_pure {a : α} : (Pure.pure a : Prog V ε α).Ensures view s W Q ↔ Q a := Iff.rfl

@[simp] theorem ensures_fail {e : ε} : (fail e : Prog V ε α).Ensures view s W Q := trivial

@[simp] theorem ensures_get {k : K} {Q : Option (V k) → Prop} :
    (get k : Prog V ε (Option (V k))).Ensures view s W Q ↔ ∀ v, Q (view k (s.lookup k) v) := Iff.rfl

@[simp] theorem ensures_put {k : K} {v : V k} {Q : Unit → Prop} :
    (put k v : Prog V ε Unit).Ensures view s W Q ↔ W k (some v) ∧ Q () := Iff.rfl

@[simp] theorem ensures_delete {k : K} {Q : Unit → Prop} :
    (delete k : Prog V ε Unit).Ensures view s W Q ↔ W k none ∧ Q () := Iff.rfl

@[simp] theorem ensures_exists? {p : (k : K) → V k → Bool} {Q : Bool → Prop} :
    (exists? p : Prog V ε Bool).Ensures view s W Q ↔ Q (anyEntry p s) := Iff.rfl

@[simp] theorem ensures_ofExcept {x : Except ε α} :
    (ofExcept x : Prog V ε α).Ensures view s W Q ↔ ∀ a, x = .ok a → Q a := by
  cases x with
  | ok a => simp [ofExcept, Ensures]
  | error e => simp [ofExcept]

@[simp] theorem ensures_bind {p : Prog V ε α} {f : α → Prog V ε β} {Q : β → Prop} :
    (p >>= f).Ensures view s W Q ↔ p.Ensures view s W fun a => (f a).Ensures view s W Q := by
  induction p with
  | pure a => rfl
  | fail e => rfl
  | read k next ih => exact forall_congr' fun v => ih _
  | write k v next ih => exact and_congr_right fun _ => ih
  | scan p next ih => exact ih _

@[simp] theorem ensures_ite {c : Prop} [Decidable c] {p q : Prog V ε α} :
    (if c then p else q).Ensures view s W Q ↔ (c → p.Ensures view s W Q) ∧ (¬ c → q.Ensures view s W Q) := by
  by_cases hc : c <;> simp [hc]

@[simp] theorem ensures_mapError {f : ε → ε'} {p : Prog V ε α} :
    (p.mapError f).Ensures view s W Q ↔ p.Ensures view s W Q := by
  induction p with
  | pure a => rfl
  | fail e => rfl
  | read k next ih => exact forall_congr' fun v => ih _
  | write k v next ih => exact and_congr_right fun _ => ih
  | scan p next ih => exact ih _

theorem Ensures.lookup {p : Prog V ε α} (hp : p.Ensures view s W Q) {b b' : Batch V} {a : α}
    (h : p.stage view s b = .ok (a, b')) {k : K} {v : Option (V k)} (hk : b'.lookup k = some v) :
    b.lookup k = some v ∨ W k v := by
  induction p generalizing b with
  | pure a =>
    cases h
    exact .inl hk
  | fail e => cases h
  | read k' next ih => exact ih _ (hp _) h
  | write k' v' next ih =>
    rcases ih hp.2 h with hb | hW
    · by_cases hkk : k = k'
      · subst hkk
        rw [AList.lookup_insert] at hb
        cases hb
        exact .inr hp.1
      · exact .inl ((AList.lookup_insert_ne hkk).symm.trans hb)
    · exact .inr hW
  | scan q next ih => exact ih _ hp h

end

theorem mem_of_stage {p : Prog V ε α} {b b' : Batch V} {a : α} (h : p.stage view s b = .ok (a, b')) {k : K}
    (hk : k ∈ b) : k ∈ b' := by
  induction p generalizing b with
  | pure a =>
    cases h
    exact hk
  | fail e => cases h
  | read k' next ih => exact ih _ h hk
  | write k' v next ih => exact ih h (AList.mem_insert _ |>.mpr (.inr hk))
  | scan q next ih => exact ih _ h hk

/-- The frame rule: what a program does not write stays in the batch as it was. -/
theorem Ensures.lookup_eq {W : (k : K) → Option (V k) → Prop} {Q : α → Prop} {p : Prog V ε α}
    (hp : p.Ensures view s W Q) {b b' : Batch V} {a : α} (h : p.stage view s b = .ok (a, b')) {k : K}
    (hk : ∀ v, ¬ W k v) : b'.lookup k = b.lookup k := by
  cases hb : b'.lookup k with
  | some v => exact ((hp.lookup h hb).resolve_right (hk v)).symm
  | none =>
    cases hb₀ : b.lookup k with
    | none => rfl
    | some v =>
      have hmem := mem_of_stage h (AList.lookup_isSome.mp (by rw [hb₀]; rfl))
      rw [← AList.lookup_isSome, hb] at hmem
      cases hmem

/-! ## Fresh reads -/

/-- Run over the map `m`, no read of the program would see a value other than the latest one. -/
def Fresh (view : View V) (s : AList V) : Prog V ε α → AList V → Prop
  | pure _, _ => True
  | fail _, _ => True
  | read k next, m => view k (s.lookup k) (m.lookup k) = m.lookup k ∧ (next (m.lookup k)).Fresh view s m
  | write k v next, m => next.Fresh view s (setKey m k v)
  | scan p next, m => anyEntry p s = anyEntry p m ∧ (next (anyEntry p m)).Fresh view s m

instance decidableFresh [∀ k, DecidableEq (V k)] : (p : Prog V ε α) → (m : AList V) → Decidable (p.Fresh view s m)
  | pure _, _ => .isTrue trivial
  | fail _, _ => .isTrue trivial
  | read _ next, m => @instDecidableAnd _ _ _ (decidableFresh (next _) m)
  | write _ _ next, m => decidableFresh next (setKey m _ _)
  | scan _ next, m => @instDecidableAnd _ _ _ (decidableFresh (next _) m)

/-- A program with fresh reads that succeeds over the batch succeeds over the plain map, and the map it leaves holds
the latest value of every key. -/
theorem exec_of_stage {p : Prog V ε α} {m : AList V} {b b' : Batch V} {a : α} (hm : ∀ k, m.lookup k = latest s b k)
    (hfresh : p.Fresh view s m) (h : p.stage view s b = .ok (a, b')) :
    ∃ m', p.exec m = .ok (a, m') ∧ ∀ k, m'.lookup k = latest s b' k := by
  induction p generalizing m b with
  | pure c =>
    cases h
    exact ⟨m, rfl, hm⟩
  | fail e => cases h
  | read k next ih =>
    obtain ⟨hview, hnext⟩ := hfresh
    rw [stage, ← hm, hview] at h
    exact ih _ hm hnext h
  | write k v next ih => exact ih (lookup_setKey_eq_latest hm k v) hfresh h
  | scan q next ih =>
    obtain ⟨hscan, hnext⟩ := hfresh
    rw [stage, hscan] at h
    exact ih _ hm hnext h

/-! ## The same program over another store -/

/-- The reads that the program makes over the store `s` see the same over `s'`. -/
def SameReads (view : View V) (s s' : AList V) : Prog V ε α → Batch V → Prop
  | pure _, _ => True
  | fail _, _ => True
  | read k next, b =>
    view k (s'.lookup k) (latest s' b k) = view k (s.lookup k) (latest s b k) ∧
      (next (view k (s.lookup k) (latest s b k))).SameReads view s s' b
  | write k v next, b => next.SameReads view s s' (b.insert k v)
  | scan p next, b => anyEntry p s' = anyEntry p s ∧ (next (anyEntry p s)).SameReads view s s' b

instance decidableSameReads [∀ k, DecidableEq (V k)] {s' : AList V} :
    (p : Prog V ε α) → (b : Batch V) → Decidable (p.SameReads view s s' b)
  | pure _, _ => .isTrue trivial
  | fail _, _ => .isTrue trivial
  | read _ next, b => @instDecidableAnd _ _ _ (decidableSameReads (next _) b)
  | write _ _ next, b => decidableSameReads next (b.insert _ _)
  | scan _ next, b => @instDecidableAnd _ _ _ (decidableSameReads (next _) b)

theorem stage_congr {s' : AList V} {p : Prog V ε α} {b : Batch V} (h : p.SameReads view s s' b) :
    p.stage view s' b = p.stage view s b := by
  induction p generalizing b with
  | pure a => rfl
  | fail e => rfl
  | read k next ih =>
    obtain ⟨hread, hnext⟩ := h
    rw [stage, hread, ih _ hnext, stage]
  | write k v next ih => exact ih h
  | scan q next ih =>
    obtain ⟨hscan, hnext⟩ := h
    rw [stage, hscan, ih _ hnext, stage]

end Prog

end SovereignNetwork.Lib
