import SovereignNetwork.Contracts.Executor

/-!
# Blocks cut off by a crash

A commit logs its writes, makes them one by one under the contracts' own keys and empties the log entry. Recovery
deletes the versions of the cut block and the log.
-/

namespace SovereignNetwork.Contracts

open Lib Execution

variable {U D : Type} {X : ContractExternals U D} {s : Storage} {key : List UInt8}

/-! ## Keys -/

/-- Keys of contract data: neither the log's nor those of versions. -/
def IsContractKey (key : List UInt8) : Prop := ¬bytesOf "wal:" <+: key ∧ ¬bytesOf "state:" <+: key

theorem bytesOf_wal : bytesOf "wal:" = [119, 97, 108, 58] := by decide +kernel

theorem not_isPrefix_of_head {start : List UInt8} {b : UInt8} (hstart : start.head? = some b)
    (hkey : key.head? ≠ some b) : ¬start <+: key := by
  rintro ⟨rest, rfl⟩
  rw [List.head?_append, hstart] at hkey
  exact hkey rfl

theorem isContractKey_of_head (hwal : key.head? ≠ some 119) (hstate : key.head? ≠ some 115) : IsContractKey key :=
  ⟨not_isPrefix_of_head (by decide +kernel) hwal, not_isPrefix_of_head (by decide +kernel) hstate⟩

theorem IsContractKey.not_stateAt (h : IsContractKey key) (height : Nat) : ¬stateAt height <+: key := by
  rw [stateAt_eq]
  exact fun hheight => h.2 ((List.prefix_append _ _).trans hheight)

theorem not_isContractKey_makeWalKey (height : Nat) : ¬IsContractKey (makeWalKey height) :=
  fun h => h.1 (List.prefix_append _ _)

theorem length_makeWalKey (height : Nat) : (makeWalKey height).length = 12 := by
  simp [makeWalKey, bytesOf_wal]

theorem tokenKey_inj {tokenId tokenId' : TokenId} (h : tokenKey tokenId = tokenKey tokenId') : tokenId = tokenId' :=
  hashBytes_inj (hexEncode_inj (bytesOf_inj (List.append_cancel_left h)))

theorem head_tokenKey (tokenId : TokenId) : (tokenKey tokenId).head? = some 116 := by
  have htag : (bytesOf "token").head? = some 116 := by decide +kernel
  rw [tokenKey, generateStorageKey, List.append_assoc, List.head?_append, htag]
  rfl

theorem isContractKey_tokenKey (tokenId : TokenId) : IsContractKey (tokenKey tokenId) :=
  isContractKey_of_head (by rw [head_tokenKey]; decide) (by rw [head_tokenKey]; decide)

theorem head_ubiInstanceId : ubiInstanceId.head? = some 99 := by decide +kernel

theorem head_devGrantsInstanceId : devGrantsInstanceId.head? = some 99 := by decide +kernel

/-! ## The writes of a block -/

namespace PendingStateChanges

variable {pending : PendingStateChanges U D}

theorem mem_writes {w : Entry} :
    w ∈ pending.writes X ↔ w ∈ pending.tokenWrites X ∨
      (∃ ubi, pending.ubiChange = some ubi ∧ (ubiInstanceId, X.serializeUbi ubi) = w) ∨
      ∃ devGrants, pending.devGrantsChange = some devGrants ∧
        (devGrantsInstanceId, X.serializeDevGrants devGrants) = w := by
  simp [writes]

theorem exists_tokenKey_of_mem {w : Entry} (h : w ∈ pending.tokenWrites X) :
    ∃ tokenId ∈ pending.tokenChanges, w.1 = tokenKey tokenId := by
  obtain ⟨change, hchange, rfl⟩ := List.mem_map.mp h
  exact ⟨change.1, List.mem_keys_of_mem hchange, rfl⟩

theorem isContractKey_of_mem_writes {w : Entry} (h : w ∈ pending.writes X) : IsContractKey w.1 := by
  rcases mem_writes.mp h with htoken | ⟨ubi, -, rfl⟩ | ⟨devGrants, -, rfl⟩
  · obtain ⟨tokenId, -, hkey⟩ := exists_tokenKey_of_mem htoken
    rw [hkey]
    exact isContractKey_tokenKey tokenId
  · exact isContractKey_of_head (by rw [head_ubiInstanceId]; decide) (by rw [head_ubiInstanceId]; decide)
  · exact isContractKey_of_head (by rw [head_devGrantsInstanceId]; decide) (by rw [head_devGrantsInstanceId]; decide)

theorem nodup_tokenWrites (pending : PendingStateChanges U D) : ((pending.tokenWrites X).map Prod.fst).Nodup := by
  have hkeys : (pending.tokenChanges.entries.map Sigma.fst).Nodup := pending.tokenChanges.nodupKeys
  have hmap := hkeys.map (f := tokenKey) fun _ _ => tokenKey_inj
  simpa [tokenWrites, Function.comp_def] using hmap

theorem nodup_writes (pending : PendingStateChanges U D) : ((pending.writes X).map Prod.fst).Nodup := by
  refine ((List.perm_insertionSort _ _).map Prod.fst).nodup_iff.mpr ?_
  have hids : ubiInstanceId ≠ devGrantsInstanceId := by decide +kernel
  have htokens : ∀ w ∈ pending.tokenWrites X, w.1.head? ≠ some 99 := by
    intro w hw
    obtain ⟨tokenId, -, htoken⟩ := exists_tokenKey_of_mem hw
    rw [htoken, head_tokenKey]
    decide
  have hubi : ∀ w ∈ pending.tokenWrites X, w.1 ≠ ubiInstanceId :=
    fun w hw heq => htokens w hw (heq ▸ head_ubiInstanceId)
  have hdevGrants : ∀ w ∈ pending.tokenWrites X, w.1 ≠ devGrantsInstanceId :=
    fun w hw heq => htokens w hw (heq ▸ head_devGrantsInstanceId)
  rw [List.map_append, List.map_append, List.nodup_append, List.nodup_append]
  refine ⟨⟨pending.nodup_tokenWrites, ?_, ?_⟩, ?_, ?_⟩
  · cases pending.ubiChange <;> simp
  · cases pending.ubiChange with
    | none => simp
    | some ubi => simpa using hubi
  · cases pending.devGrantsChange <;> simp
  · cases pending.devGrantsChange with
    | none => simp
    | some devGrants =>
      intro key hkey key' hkey'
      obtain rfl : key' = devGrantsInstanceId := by simpa using hkey'
      rcases List.mem_append.mp hkey with htoken | hother
      · obtain ⟨w, hw, rfl⟩ := List.mem_map.mp htoken
        exact hdevGrants w hw
      · cases hchange : pending.ubiChange with
        | none => simp [hchange] at hother
        | some ubi =>
          obtain rfl : key = ubiInstanceId := by simpa [hchange] using hother
          exact hids

end PendingStateChanges

/-! ## Recovery -/

theorem extractHeightFromWalKey_of_length (hkey : bytesOf "wal:" <+: key) (hlength : key.length = 12) :
    ∃ height, extractHeightFromWalKey key = .ok height := by
  have hdrop : (key.drop 4).length = 8 := by rw [List.length_drop, hlength]
  simp [extractHeightFromWalKey, List.isPrefixOf_iff_prefix.mpr hkey, hlength, pure, Except.pure]

/-- What the loop leaves, as far as its invariant needs it: the entries are gone, nothing is new and contract data is
as it was. -/
structure Recovered (s : Storage) (entries : List Entry) (s' : Storage) : Prop where
  gone : ∀ e ∈ entries, s'.lookup e.1 = none
  nothingNew : ∀ key, s.lookup key = none → s'.lookup key = none
  kept : ∀ key, IsContractKey key → s'.lookup key = s.lookup key

theorem Recovered.cons {e : Entry} {entries : List Entry} {discarded s' : Storage} (hwal : bytesOf "wal:" <+: e.1)
    (hnew : ∀ key, s.lookup key = none → discarded.lookup key = none)
    (hkept : ∀ key, IsContractKey key → discarded.lookup key = s.lookup key)
    (h : Recovered (discarded.delete e.1) entries s') : Recovered s (e :: entries) s' := by
  refine ⟨?_, fun key hkey => h.nothingNew key ?_, fun key hkey => ?_⟩
  · rintro e' (_ | ⟨_, he'⟩)
    · exact h.nothingNew e.1 (by rw [Storage.lookup_delete, if_pos rfl])
    · exact h.gone e' he'
  · rw [Storage.lookup_delete, hnew key hkey, ite_self]
  · have hne : key ≠ e.1 := by
      rintro rfl
      exact hkey.1 hwal
    rw [h.kept key hkey, Storage.lookup_delete, if_neg hne, hkept key hkey]

theorem recoverEntries_recovered (lastFinalized : Nat) {entries : List Entry}
    (h : ∀ e ∈ entries, bytesOf "wal:" <+: e.1 ∧ e.1.length = 12) (stats : RecoveryStats) (s : Storage) :
    ∃ stats' s', recoverEntries lastFinalized entries stats s = (.ok stats', s') ∧ Recovered s entries s' := by
  induction entries generalizing stats s with
  | nil => exact ⟨stats, s, rfl, fun _ he => absurd he List.not_mem_nil, fun _ hkey => hkey, fun _ _ => rfl⟩
  | cons e entries ih =>
    obtain ⟨walKey, walData⟩ := e
    obtain ⟨hwal, hlength⟩ := h _ List.mem_cons_self
    obtain ⟨height, hheight⟩ := extractHeightFromWalKey_of_length hwal hlength
    replace ih := ih fun e he => h e (List.mem_cons_of_mem _ he)
    simp only [recoverEntries, hheight]
    split
    · obtain ⟨stats', s', hrun, hrec⟩ := ih _ (s.delete walKey)
      exact ⟨stats', s', hrun, hrec.cons hwal (fun _ hkey => hkey) fun _ _ => rfl⟩
    · split
      · obtain ⟨stats', s', hrun, hrec⟩ := ih _ (s.delete walKey)
        exact ⟨stats', s', hrun, hrec.cons hwal (fun _ hkey => hkey) fun _ _ => rfl⟩
      · obtain ⟨stats', s', hrun, hrec⟩ := ih _ ((s.discardIncompleteBlock height).delete walKey)
        exact ⟨stats', s', hrun, hrec.cons hwal (fun _ => Storage.lookup_deletePrefix_of_none)
          fun _ hkey => s.lookup_deletePrefix_of_not (hkey.not_stateAt height)⟩

/-- The heights of the log are eight bytes. -/
def WellFormedLog (s : Storage) : Prop :=
  ∀ key, (s.lookup key).isSome → bytesOf "wal:" <+: key → key.length = 12

theorem recoverFromCrash_recovered (hlog : WellFormedLog s) :
    ∃ stats s', recoverFromCrash s = (.ok stats, s') ∧ (∀ key, bytesOf "wal:" <+: key → s'.lookup key = none) ∧
      ∀ key, IsContractKey key → s'.lookup key = s.lookup key := by
  have hentries : ∀ e ∈ s.scanPrefix (bytesOf "wal:"), bytesOf "wal:" <+: e.1 ∧ e.1.length = 12 := by
    intro e he
    obtain ⟨hlookup, hwal⟩ := Storage.mem_scanPrefix.mp he
    exact ⟨hwal, hlog e.1 (by rw [hlookup]; rfl) hwal⟩
  obtain ⟨stats, s', hrun, hrec⟩ := recoverEntries_recovered (s.getLastFinalizedHeight.getD 0) hentries _ s
  refine ⟨stats, s', hrun, fun key hkey => ?_, hrec.kept⟩
  cases hlookup : s.lookup key with
  | none => exact hrec.nothingNew key hlookup
  | some value => exact hrec.gone (key, value) (Storage.mem_scanPrefix.mpr ⟨hlookup, hkey⟩)

theorem length_of_recoverEntries_eq_ok {lastFinalized : Nat} {entries : List Entry} {stats stats' : RecoveryStats}
    {s' : Storage} (h : recoverEntries lastFinalized entries stats s = (.ok stats', s')) :
    ∀ e ∈ entries, e.1.length = 12 := by
  induction entries generalizing stats s with
  | nil => exact fun e he => absurd he List.not_mem_nil
  | cons e entries ih =>
    obtain ⟨walKey, walData⟩ := e
    rw [recoverEntries] at h
    split at h
    · cases h
    · next height hheight =>
      obtain ⟨-, hlength⟩ := guard_eq_ok.mp hheight
      obtain ⟨hlength, -⟩ := guard_eq_ok.mp hlength
      rw [List.length_drop, not_not] at hlength
      have hentries : ∀ e ∈ entries, e.1.length = 12 := by
        split_ifs at h <;> exact ih h
      rintro e (_ | ⟨_, he⟩)
      · exact (Nat.sub_eq_iff_eq_add (by omega)).mp hlength
      · exact hentries e he

theorem wellFormedLog_of_recoverFromCrash {stats : RecoveryStats} {s' : Storage}
    (h : recoverFromCrash s = (.ok stats, s')) : WellFormedLog s := by
  intro key hkey hwal
  obtain ⟨value, hvalue⟩ := Option.isSome_iff_exists.mp hkey
  exact length_of_recoverEntries_eq_ok h (key, value) (Storage.mem_scanPrefix.mpr ⟨hvalue, hwal⟩)

/-! ## The cut -/

/-- The storage of a node that stops after `n` of the `set` calls of a commit. -/
def crashAfter (X : ContractExternals U D) (s : Storage) (pending : PendingStateChanges U D) (n : Nat) : Storage :=
  s.setAll ((pending.commitSets X).take n)

theorem Storage.lookup_setAll_congr {entries : List Entry} (s s' : Storage) (h : s.lookup key = s'.lookup key) :
    (s.setAll entries).lookup key = (s'.setAll entries).lookup key := by
  induction entries generalizing s s' with
  | nil => exact h
  | cons e entries ih =>
    refine ih (s.set e) (s'.set e) ?_
    rw [lookup_set, lookup_set, h]

variable {pending : PendingStateChanges U D} {n : Nat}

theorem WellFormedLog.crashAfter (h : WellFormedLog s) : WellFormedLog (crashAfter X s pending n) := by
  intro key hkey hwal
  by_cases hset : key ∈ ((pending.commitSets X).take n).map Prod.fst
  · obtain ⟨e, he, rfl⟩ := List.mem_map.mp hset
    have hmem := List.mem_of_mem_take he
    simp only [PendingStateChanges.commitSets, List.cons_append, List.mem_cons, List.mem_append,
      List.not_mem_nil, or_false] at hmem
    rcases hmem with rfl | hwrite | rfl
    · exact length_makeWalKey _
    · exact absurd hwal (PendingStateChanges.isContractKey_of_mem_writes hwrite).1
    · exact length_makeWalKey _
  · exact h key (by rwa [Contracts.crashAfter, Storage.lookup_setAll_of_notMem s hset] at hkey) hwal

theorem lookup_crashAfter (hkey : IsContractKey key) :
    (crashAfter X s pending n).lookup key = (s.setAll ((pending.writes X).take (n - 1))).lookup key := by
  have hne : ∀ height, key ≠ makeWalKey height := by
    rintro height rfl
    exact not_isContractKey_makeWalKey height hkey
  cases n with
  | zero => rfl
  | succ n =>
    rw [crashAfter, PendingStateChanges.commitSets, List.cons_append, List.take_succ_cons, List.take_append,
      ← List.cons_append, Storage.setAll_append, Storage.lookup_setAll_of_notMem]
    · refine Storage.lookup_setAll_congr (s.set (makeWalKey _, _)) s ?_
      rw [Storage.lookup_set, if_neg (hne _)]
    · intro hclear
      obtain ⟨e, he, rfl⟩ := List.mem_map.mp hclear
      have hlast := List.mem_singleton.mp (List.mem_of_mem_take he)
      exact hne _ (congrArg Prod.fst hlast)

theorem lookup_crashAfter_of_made {w : Entry} (hw : w ∈ (pending.writes X).take (n - 1)) :
    (crashAfter X s pending n).lookup w.1 = some w.2 := by
  rw [lookup_crashAfter (PendingStateChanges.isContractKey_of_mem_writes (List.mem_of_mem_take hw))]
  refine Storage.lookup_setAll_of_mem s ?_ hw
  rw [List.map_take]
  exact pending.nodup_writes.take

theorem lookup_crashAfter_of_missing {w : Entry} (hw : w ∈ (pending.writes X).drop (n - 1)) :
    (crashAfter X s pending n).lookup w.1 = s.lookup w.1 := by
  have hkeys := pending.nodup_writes (X := X)
  rw [← List.take_append_drop (n - 1) (pending.writes X), List.map_append] at hkeys
  rw [lookup_crashAfter (PendingStateChanges.isContractKey_of_mem_writes (List.mem_of_mem_drop hw)),
    Storage.lookup_setAll_of_notMem]
  exact fun hmem => (List.disjoint_of_nodup_append hkeys) hmem (List.mem_map_of_mem hw)

theorem lookup_finalizeBlockState {e : ContractExecutor U D} (hpending : e.pendingChanges = some pending)
    (hkey : IsContractKey key) :
    (e.finalizeBlockState X pending.blockHeight).2.storage.lookup key =
      (e.storage.setAll (pending.writes X)).lookup key := by
  have hcommit : (e.finalizeBlockState X pending.blockHeight).2.storage =
      crashAfter X e.storage pending ((pending.writes X).length + 2) := by
    simp only [ContractExecutor.finalizeBlockState, hpending, crashAfter, if_true]
    rw [List.take_of_length_le (by simp [PendingStateChanges.commitSets])]
  rw [hcommit, lookup_crashAfter hkey, List.take_of_length_le (by omega)]

/-- The block changes no stored value before the cut, or none after it. -/
def ChangesOneSide (X : ContractExternals U D) (s : Storage) (pending : PendingStateChanges U D) (n : Nat) : Prop :=
  (∀ w ∈ (pending.writes X).take (n - 1), s.lookup w.1 = some w.2) ∨
    ∀ w ∈ (pending.writes X).drop (n - 1), s.lookup w.1 = some w.2

theorem lookup_crashAfter_iff {e : ContractExecutor U D} (hpending : e.pendingChanges = some pending) :
    ((∀ key, IsContractKey key → (crashAfter X e.storage pending n).lookup key = e.storage.lookup key) ∨
      ∀ key, IsContractKey key → (crashAfter X e.storage pending n).lookup key =
        (e.finalizeBlockState X pending.blockHeight).2.storage.lookup key) ↔
    ChangesOneSide X e.storage pending n := by
  have hkeys := pending.nodup_writes (X := X)
  have hcontract : ∀ w ∈ pending.writes X, IsContractKey w.1 :=
    fun w hw => PendingStateChanges.isContractKey_of_mem_writes hw
  refine or_congr ⟨fun h w hw => ?_, fun h key hkey => ?_⟩ ⟨fun h w hw => ?_, fun h key hkey => ?_⟩
  · rw [← h w.1 (hcontract w (List.mem_of_mem_take hw)), lookup_crashAfter_of_made hw]
  · rw [lookup_crashAfter hkey, Storage.lookup_setAll_of_stored _ _ h]
    rw [List.map_take]
    exact hkeys.take
  · have hmem := List.mem_of_mem_drop hw
    rw [← lookup_crashAfter_of_missing hw, h w.1 (hcontract w hmem),
      lookup_finalizeBlockState hpending (hcontract w hmem), Storage.lookup_setAll_of_mem _ hkeys hmem]
  · rw [lookup_finalizeBlockState hpending hkey, lookup_crashAfter hkey]
    nth_rewrite 2 [← List.take_append_drop (n - 1) (pending.writes X)]
    rw [Storage.setAll_append]
    refine (Storage.lookup_setAll_of_stored _ ?_ ?_ key).symm
    · rw [List.map_drop]
      exact hkeys.drop
    · intro w hw
      rw [← lookup_crashAfter (hcontract w (List.mem_of_mem_drop hw)), lookup_crashAfter_of_missing hw, h w hw]

/-- A commit cut after any number of its `set` calls is made whole or not at all by recovery, with no log left, just if the
log is well formed and the block changes no stored value before the cut or none after it. -/
theorem block_commit_is_atomic (X : ContractExternals U D) (e : ContractExecutor U D)
    (pending : PendingStateChanges U D) (n : Nat) (hpending : e.pendingChanges = some pending) :
    (∃ stats s', recoverFromCrash (crashAfter X e.storage pending n) = (.ok stats, s') ∧
      (∀ key, bytesOf "wal:" <+: key → s'.lookup key = none) ∧
      ((∀ key, IsContractKey key → s'.lookup key = e.storage.lookup key) ∨
        ∀ key, IsContractKey key →
          s'.lookup key = (e.finalizeBlockState X pending.blockHeight).2.storage.lookup key)) ↔
    WellFormedLog e.storage ∧ ChangesOneSide X e.storage pending n := by
  rw [← lookup_crashAfter_iff hpending]
  constructor
  · rintro ⟨stats, s', hrun, -, hdata⟩
    have hcrash := wellFormedLog_of_recoverFromCrash hrun
    obtain ⟨_, _, hrun', -, hkept⟩ := recoverFromCrash_recovered hcrash
    rw [hrun] at hrun'
    cases hrun'
    refine ⟨fun key hkey hwal => hcrash key (Storage.isSome_lookup_setAll _ hkey) hwal, ?_⟩
    exact hdata.imp (fun h key hkey => hkept key hkey ▸ h key hkey) fun h key hkey => hkept key hkey ▸ h key hkey
  · rintro ⟨hlog, hdata⟩
    have hcrash : WellFormedLog (crashAfter X e.storage pending n) := hlog.crashAfter
    obtain ⟨stats, s', hrun, hgone, hkept⟩ := recoverFromCrash_recovered hcrash
    refine ⟨stats, s', hrun, hgone, ?_⟩
    exact hdata.imp (fun h key hkey => (hkept key hkey).trans (h key hkey))
      fun h key hkey => (hkept key hkey).trans (h key hkey)

def decimalsCodec : ContractExternals Unit Unit where
  blake3 _ := 0
  serializeToken token := [UInt8.ofNat token.decimals]
  serializeUbi _ := []
  serializeDevGrants _ := []
  serializeWrites writes := [UInt8.ofNat writes.length]

def tokenWithDecimals (decimals : Nat) : TokenContract := .new 0 "Token" "TKN" decimals 0 false 0 ⟨0, 0, 0⟩

def twoTokens : Storage := Storage.setAll ∅ [(tokenKey 1, [1]), (tokenKey 2, [1])]

def pendingChangesOf (tokenIds : List TokenId) : PendingStateChanges Unit Unit :=
  ⟨tokenIds.foldr (fun tokenId changes => changes.insert tokenId (tokenWithDecimals 2)) ∅, none, none, 5⟩

theorem wellFormedLog_twoTokens : WellFormedLog twoTokens := by
  intro key hkey hwal
  by_cases hset : key ∈ [tokenKey 1, tokenKey 2]
  · obtain ⟨tokenId, rfl⟩ : ∃ tokenId, key = tokenKey tokenId := by
      rcases List.mem_pair.mp hset with rfl | rfl
      · exact ⟨1, rfl⟩
      · exact ⟨2, rfl⟩
    exact absurd hwal (isContractKey_tokenKey tokenId).1
  · rw [twoTokens, Storage.lookup_setAll_of_notMem _ hset] at hkey
    cases hkey

theorem single_change_commits_atomically :
    let pending := pendingChangesOf [1]
    let e : ContractExecutor Unit Unit := ⟨twoTokens, ∅, some pending⟩
    (pending.writes decimalsCodec).length = 1 ∧
    ∀ n, ∃ stats s', recoverFromCrash (crashAfter decimalsCodec e.storage pending n) = (.ok stats, s') ∧
      (∀ key, bytesOf "wal:" <+: key → s'.lookup key = none) ∧
      ((∀ key, IsContractKey key → s'.lookup key = e.storage.lookup key) ∨
        ∀ key, IsContractKey key →
          s'.lookup key = (e.finalizeBlockState decimalsCodec pending.blockHeight).2.storage.lookup key) := by
  intro pending e
  have hlength : (pending.writes decimalsCodec).length = 1 := by decide +kernel
  refine ⟨hlength, fun n => (block_commit_is_atomic decimalsCodec e pending n rfl).mpr ⟨wellFormedLog_twoTokens, ?_⟩⟩
  by_cases hn : n ≤ 1
  · left
    simp [Nat.sub_eq_zero_of_le hn]
  · right
    rw [List.drop_of_length_le (by omega)]
    exact fun w hw => absurd hw List.not_mem_nil

/-- The node stops after the log entry and the first of two changes. -/
theorem cut_commit_leaves_half_a_block :
    let pending := pendingChangesOf [1, 2]
    let e : ContractExecutor Unit Unit := ⟨twoTokens, ∅, some pending⟩
    ∃ stats s', recoverFromCrash (crashAfter decimalsCodec e.storage pending 2) = (.ok stats, s') ∧
      s'.lookup (tokenKey 1) = some [2] ∧ e.storage.lookup (tokenKey 1) = some [1] ∧
      s'.lookup (tokenKey 2) = some [1] ∧
      (e.finalizeBlockState decimalsCodec pending.blockHeight).2.storage.lookup (tokenKey 2) = some [2] := by
  intro pending e
  have hcrash : WellFormedLog (crashAfter decimalsCodec e.storage pending 2) := wellFormedLog_twoTokens.crashAfter
  obtain ⟨stats, s', hrun, -, hkept⟩ := recoverFromCrash_recovered hcrash
  refine ⟨stats, s', hrun, ?_, ?_, ?_, ?_⟩
  · rw [hkept _ (isContractKey_tokenKey 1)]
    decide +kernel
  · decide +kernel
  · rw [hkept _ (isContractKey_tokenKey 2)]
    decide +kernel
  · decide +kernel

end SovereignNetwork.Contracts
