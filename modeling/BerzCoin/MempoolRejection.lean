import BerzCoin.MempoolLinks

/-! When a rejected transaction leaves the mempool as it was. The eviction and the removal of
conflicts come before the last two checks, and what they took out is not put back. -/
namespace BerzCoin
namespace Mempool
open Script (Crypto)
variable {F : Type} [LinearOrder F] {settings : MempoolSettings F} {chain : ChainView}
  {pool : Mempool F} {c : Candidate F}

/-- The eviction takes something out: there is no room, and the package of the lowest rank pays
less than the candidate. -/
def Outbids (settings : MempoolSettings F) (pool : Mempool F) (c : Candidate F) : Prop :=
  pool.canAccept settings c.size c.weight = false ∧
    ∃ txid, (pool.txids.insertionSort fun a b => pool.evictionRankLe settings a b = true).head? =
      some txid ∧ (pool.descendantPackageStats settings txid).1 < c.feeRate

lemma makeRoom_of_not_outbids (h : ¬ Outbids settings pool c) : pool.makeRoom settings c = pool := by
  unfold makeRoom evictForSpace
  split_ifs with hroom
  · rfl
  · cases hids : pool.txids.insertionSort fun a b => pool.evictionRankLe settings a b = true with
    | nil => rfl
    | cons txid rest =>
      have hmem : pool.transactions.contains txid = true := by
        have hin : txid ∈ pool.txids := (List.mem_insertionSort _).1 (hids ▸ List.mem_cons_self)
        simpa [KeyedRows.contains, Option.isSome_iff_ne_none] using mem_txids.1 hin
      have hrate : c.feeRate ≤ (pool.descendantPackageStats settings txid).1 := by
        by_contra hlt
        exact h ⟨by simpa using hroom, txid, by rw [hids]; rfl, not_le.1 hlt⟩
      rw [evictLoop, if_neg hroom, if_pos hmem, if_pos hrate]

lemma Outbids.evicts (h : Outbids settings pool c) :
    ∃ txid, pool.transactions.get? txid ≠ none ∧
      (pool.makeRoom settings c).transactions.get? txid = none := by
  obtain ⟨hroom, txid, hhead, hrate⟩ := h
  have hroom' : ¬ pool.canAccept settings c.size c.weight = true := by simp [hroom]
  obtain ⟨rest, hids⟩ : ∃ rest, (pool.txids.insertionSort fun a b =>
      pool.evictionRankLe settings a b = true) = txid :: rest := by
    refine ⟨_, List.eq_cons_of_mem_head? ?_⟩
    rw [hhead]
    rfl
  have hin : txid ∈ pool.txids := (List.mem_insertionSort _).1 (hids ▸ List.mem_cons_self)
  have hmem : pool.transactions.contains txid = true := by
    simpa [KeyedRows.contains, Option.isSome_iff_ne_none] using mem_txids.1 hin
  refine ⟨txid, mem_txids.1 hin, ?_⟩
  unfold makeRoom evictForSpace
  rw [if_neg hroom', hids, evictLoop, if_neg hroom', if_pos hmem, if_neg (not_le.2 hrate)]
  exact (keptByRemoval_absent txid).departure.evictLoop settings _ _ _
    (pool.removeTransaction_absent txid true) rest

lemma cleared_of_not_outbids (h : ¬ Outbids settings pool c) (hconflicts : c.conflicts = []) :
    pool.cleared settings c = pool := by
  unfold cleared removeConflicts
  rw [makeRoom_of_not_outbids h, hconflicts]
  rfl

omit [LinearOrder F] in
lemma not_sameContents_of_absent {pool' : Mempool F} {txid : Bytes}
    (hpool : pool.transactions.get? txid ≠ none) (hnone : pool'.transactions.get? txid = none) :
    ¬ pool'.SameContents pool := by
  intro hsame
  exact hpool ((hsame.entries txid).symm.trans hnone)

/-- A cleared pool is the pool itself just when nothing was evicted and nothing conflicts. -/
lemma Screened.cleared_sameContents {tx : Transaction} (h : Screened settings chain pool tx c) :
    (pool.cleared settings c).SameContents pool ↔ ¬ Outbids settings pool c ∧ c.conflicts = [] := by
  constructor
  · intro hsame
    constructor
    · intro houtbids
      obtain ⟨txid, hpool, hnone⟩ := houtbids.evicts
      have hgone := (keptByRemoval_absent txid).departure.removeEach hnone
        ((pool.makeRoom settings c).replacementSet c.conflicts)
      exact not_sameContents_of_absent hpool hgone hsame
    · by_contra hconflicts
      obtain ⟨txid, hmem⟩ := List.exists_mem_of_ne_nil _ hconflicts
      have hgone : (pool.cleared settings c).transactions.get? txid = none :=
        removeEach_absent _ (subset_replacementSet _ hmem)
      refine not_sameContents_of_absent ?_ hgone hsame
      rw [h.conflicts_eq] at hmem
      obtain ⟨r, hr, rfl⟩ := List.mem_map.1 hmem
      exact KeyedRows.mem_keys.1 (List.mem_map_of_mem (List.mem_filter.1 hr).1)
  · rintro ⟨houtbids, hconflicts⟩
    rw [cleared_of_not_outbids houtbids hconflicts]
    exact .refl pool

/-- In a state that any calls reach, a rejection leaves the entries, the spent outpoints and the
totals alone exactly when the late checks are not reached after a removal: there is room, or
nothing was evicted for it; and the ancestors take the candidate, or nothing was evicted and no
entry conflicts. -/
theorem addTransaction_rejection_iff (settings : MempoolSettings F)
    (calls : List (ChainView × MempoolCall F)) (chain : ChainView) (args : CallArgs F)
    (tx : Transaction) :
    (∀ reason, ((runCalls settings calls).addTransaction settings chain args tx).2 = some reason →
      ((runCalls settings calls).addTransaction settings chain args tx).1.SameContents
        (runCalls settings calls)) ↔
    ∀ c, (runCalls settings calls).screen settings chain args tx = .ok c →
      (((runCalls settings calls).makeRoom settings c).canAccept settings c.size c.weight = false →
        ¬ Outbids settings (runCalls settings calls) c) ∧
      (((runCalls settings calls).makeRoom settings c).canAccept settings c.size c.weight = true →
        ¬ TakesCandidate settings chain ((runCalls settings calls).cleared settings c) args.now c →
        ¬ Outbids settings (runCalls settings calls) c ∧ c.conflicts = []) := by
  obtain ⟨hbooks, hback⟩ := runCalls_backed settings calls
  generalize runCalls settings calls = pool at hbooks hback ⊢
  unfold Mempool.addTransaction
  cases hscreen : pool.screen settings chain args tx with
  | error reason =>
    refine iff_of_true (fun _ _ => .refl pool) ?_
    intro c hc
    cases hc
  | ok c =>
    have hs := screen_ok hscreen
    simp only [Except.ok.injEq, forall_eq']
    cases hroom : (pool.makeRoom settings c).canAccept settings c.size c.weight with
    | false =>
      simp only [Bool.false_eq_true, if_false, forall_true_left, false_imp_iff, and_true]
      constructor
      · intro hsame houtbids
        obtain ⟨txid, hpool, hnone⟩ := houtbids.evicts
        exact not_sameContents_of_absent hpool hnone (hsame _ rfl)
      · intro houtbids reason _
        rw [makeRoom_of_not_outbids houtbids]
        exact .refl pool
    | true =>
      simp only [if_true, Bool.true_eq_false, false_imp_iff, forall_true_left, true_and]
      rw [← hs.cleared_sameContents]
      rcases hs.admit_cases hbooks hback args.now with ⟨heq, htakes⟩ | ⟨reason, heq, hsame, hnot⟩
      · refine iff_of_true ?_ (fun hnot => (hnot htakes).elim)
        intro reason hreason
        have hnone : ((pool.cleared settings c).admitCandidate settings chain args.now c).2 = none := by
          rw [heq]
        rw [← cleared, hnone] at hreason
        cases hreason
      · constructor
        · intro h _
          exact hsame.symm.trans (h reason heq)
        · intro h reason' _
          exact hsame.trans (h hnot)

end Mempool

/-! A coin is spent by one transaction, and a second one spends the coin as well as the output of
the first. -/
namespace MempoolExample
open Script (Crypto)

def coin : Bytes := List.replicate 32 1

/-- Pays to the hash of the script `OP_1`. -/
def payToScript : Bytes := 0xa9 :: 0x14 :: beBytes 20 0xda1745e9b549bd0bfa1a569971c77eba30cd5a4b ++ [0x87]

def first : Transaction :=
  { version := 2
    vin := [⟨coin, 0, [], 0, []⟩]
    vout := [⟨90000, payToScript⟩]
    locktime := 0 }

def firstId : Bytes := beBytes 32 0x8791a88f1c926a9f3f8cd158818adfa984a572f978ac44d29b60ddf5e53b4936

def second : Transaction :=
  { version := 2
    vin := [⟨coin, 0, [], 0, []⟩, ⟨firstId, 0, [0x01, 0x51], 0, []⟩]
    vout := [⟨100000, payToScript⟩]
    locktime := 0 }

def secondId : Bytes := beBytes 32 0x64c6d4fd4ef90482ab1143ffb2066dce3ad4b84bc5dd2b659a193815514299c3

/-- Spends the output of the first transaction only. -/
def child : Transaction :=
  { version := 2
    vin := [⟨firstId, 0, [0x01, 0x51], 0, []⟩]
    vout := [⟨80000, payToScript⟩]
    locktime := 0 }

def childId : Bytes := beBytes 32 0x89c941ebadcd0fe37c63fc9eef4c4c9ebe3ccd12ef89724b96dd068097ed96dc

def digests : List (Bytes × Bytes) :=
  [(child.serialize false, beBytes 32 0x8250fa1a6dc70f15285d0cfcd1a03421e4ef45ba08e5b562f951606aa0d0c8b0),
    (beBytes 32 0x8250fa1a6dc70f15285d0cfcd1a03421e4ef45ba08e5b562f951606aa0d0c8b0, childId),
    (first.serialize false, beBytes 32 0xd4a33f1d9377991493bb1dee6273fc6cdfc165f7303fd1fc5d89690507957143),
    (beBytes 32 0xd4a33f1d9377991493bb1dee6273fc6cdfc165f7303fd1fc5d89690507957143, firstId),
    (second.serialize false, beBytes 32 0xa55b22fabbea367d0565a603c69b0c0f99859aee722b1c65d1114db1eac2323e),
    (beBytes 32 0xa55b22fabbea367d0565a603c69b0c0f99859aee722b1c65d1114db1eac2323e, secondId),
    ([0x51], beBytes 32 0x4ae81572f06e1b88fd5ced7a1a000945432e83e1551e6f721ee9c00b8cc33260)]

def crypto : Crypto :=
  .ofHashlib { Hashlib.ofDigests digests with
    ripemd160 := fun data =>
      if data = beBytes 32 0x4ae81572f06e1b88fd5ced7a1a000945432e83e1551e6f721ee9c00b8cc33260 then
        beBytes 20 0xda1745e9b549bd0bfa1a569971c77eba30cd5a4b
      else [] }

lemma coinValue_lt : 100000 < 2 ^ 63 := by decide

/-- A chain with one coin that anyone can spend. -/
def chain : ChainView where
  params := .mainnet
  getUtxo outpoint :=
    if outpoint = (coin, 0) then some ⟨⟨100000, coinValue_lt⟩, [0x51], 1, false, none⟩ else none
  transactionExists txid := txid = coin
  bestHeight := 200
  known := by
    intro outpoint h
    by_contra hne
    exact h (if_neg fun heq => hne (by simp [heq]))

def settings (maxSize : ℕ) : MempoolSettings ℚ :=
  { crypto
    limits := { maxSize }
    policy := {}
    rate := fun fee vsize => fee / vsize }

/-- The settings with the digests of more strings. -/
def settingsWith (maxSize : ℕ) (digests : List (Bytes × ℕ × ℕ)) : MempoolSettings ℚ :=
  { settings maxSize with
    crypto := { crypto with toHashlib := crypto.toHashlib.withDigests digests } }

def args : Mempool.CallArgs ℚ := ⟨1, none, 0⟩

end MempoolExample

namespace Mempool

/-- With room for 100 bytes the second transaction of 126 bytes evicts the first and is rejected. -/
theorem rejected_transaction_evicts :
    ((runCalls (MempoolExample.settings 100) [(MempoolExample.chain,
      .addTransaction MempoolExample.args MempoolExample.first)]).addTransaction
        (MempoolExample.settings 100) MempoolExample.chain MempoolExample.args
        MempoolExample.second).2 = some .mempool_limits ∧
    ¬ ((runCalls (MempoolExample.settings 100) [(MempoolExample.chain,
      .addTransaction MempoolExample.args MempoolExample.first)]).addTransaction
        (MempoolExample.settings 100) MempoolExample.chain MempoolExample.args
        MempoolExample.second).1.SameContents (runCalls (MempoolExample.settings 100)
          [(MempoolExample.chain, .addTransaction MempoolExample.args MempoolExample.first)]) := by
  refine ⟨by decide +kernel, ?_⟩
  intro hsame
  have hentry := congrArg Option.isSome (hsame.entries MempoolExample.firstId)
  revert hentry
  decide +kernel

end Mempool
end BerzCoin
