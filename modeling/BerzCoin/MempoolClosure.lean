import BerzCoin.MempoolAdmission

/-! Closure of the mempool: every input of an entry is an unspent output of the chain or an output
of another entry. A connected block changes the chain, and the loop that follows removes what lost
its inputs. -/
namespace BerzCoin
namespace Mempool
variable {F : Type} [LinearOrder F] {settings : MempoolSettings F} {chain : ChainView}
  {pool : Mempool F}

/-- The input spends an unspent output of the chain. -/
def Unspent (chain : ChainView) (txin : TxIn) : Prop := chain.getUtxo txin.outpoint ≠ none

lemma Screened.unspent_or_parent {tx : Transaction} {c : Candidate F}
    (h : Screened settings chain pool tx c) (hkeeps : KeepsParents settings chain pool c) (txin : TxIn)
    (hmem : txin ∈ c.tx.vin) : txin.prevTxHash ∈ c.parents ∨ Unspent chain txin := by
  by_cases hutxo : chain.getUtxo txin.outpoint = none
  · have hprev := (validateTransaction_ok h.valid).2 txin (h.tx_eq ▸ hmem)
    obtain ⟨parent, hparent, -⟩ := prevOut_entry hprev hutxo
    have hshown := hkeeps.shown txin hmem (by simp [KeyedRows.contains, hparent])
    exact .inl ((checkDependencies_some h.parents_eq _).1.2 ⟨txin, h.tx_eq ▸ hmem, rfl, hshown⟩)
  · exact .inr hutxo

/-- An entry that revalidates has its inputs. -/
lemma Sound.fed_of_revalidates (h : Sound settings chain pool) {txid : Bytes} {entry : MempoolEntry F}
    (hentry : pool.transactions.get? txid = some entry)
    (hvalid : pool.revalidates settings chain entry = true) (txin : TxIn)
    (hmem : txin ∈ entry.tx.vin) : pool.FromEntry txid txin ∨ Unspent chain txin := by
  have hok : pool.validateTransaction settings chain entry.tx (fun outpoint =>
      outpoint ∈ outpointsOf entry.tx) = .ok () := by
    simp only [revalidates, Bool.and_eq_true] at hvalid
    cases hresult : pool.validateTransaction settings chain entry.tx (fun outpoint =>
        outpoint ∈ outpointsOf entry.tx) with
    | error reason => simp [hresult, Except.isOk, Except.toBool] at hvalid
    | ok u => rfl
  obtain ⟨hnew, hprev⟩ := validateTransaction_ok hok
  rw [h.keyed txid entry hentry] at hnew
  by_cases hutxo : chain.getUtxo txin.outpoint = none
  · rcases h.rooted txid entry hentry txin hmem with hfrom | hexists
    · exact .inl hfrom
    · refine .inl ⟨?_, prevOut_entry (hprev txin hmem) hutxo⟩
      intro heq
      rw [InTable, heq, hnew] at hexists
      cases hexists
  · exact .inr hutxo

/-- The loop over the entries feeds those that it has passed, and what it removes later takes no
input away from them. -/
lemma Sound.revalidateLoop_fed (ids : List Bytes) : ∀ pool : Mempool F, Sound settings chain pool →
    (∀ txid entry, pool.transactions.get? txid = some entry → txid ∉ ids → ∀ txin ∈ entry.tx.vin,
      pool.FromEntry txid txin ∨ Unspent chain txin) →
    Fed (Unspent chain) (revalidateLoop settings chain ids pool) := by
  induction ids with
  | nil =>
    intro pool _ hfed txid entry hentry
    exact hfed txid entry hentry List.not_mem_nil
  | cons current ids ih =>
    intro pool h hfed
    rw [revalidateLoop]
    cases hcurrent : pool.transactions.get? current with
    | none =>
      refine ih pool h ?_
      intro txid entry hentry hnot
      refine hfed txid entry hentry ?_
      rw [List.mem_cons, not_or]
      refine ⟨?_, hnot⟩
      rintro rfl
      rw [hcurrent] at hentry
      cases hentry
    | some entry =>
      simp only
      split_ifs with hvalid
      · refine ih pool h ?_
        intro txid entry' hentry' hnot
        by_cases heq : txid = current
        · subst heq
          rw [hcurrent] at hentry'
          cases hentry'
          exact h.fed_of_revalidates hcurrent hvalid
        · exact hfed txid entry' hentry' (by simp [heq, hnot])
      · have hprunes := h.linked.removeTransaction_prunes current
        have hsound := (keptByDeparture_sound settings chain (InTable chain) pool current
          ⟨h, h.rooted⟩).1
        refine ih _ hsound ?_
        intro txid entry' hentry' hnot txin hmem
        obtain ⟨old, hold, hcore⟩ := hprunes.within txid entry' hentry'
        rw [(core_congr hcore).1] at hmem
        have hne : txid ≠ current := by
          rintro rfl
          rw [removeTransaction_absent] at hentry'
          cases hentry'
        exact (hfed txid old hold (by simp [hne, hnot]) txin hmem).imp_left
          (FromEntry.prunes hprunes hentry' hold hmem)

lemma Sound.handleConnectedBlock_fed (h : Sound settings chain pool) (block : Block) :
    Fed (Unspent chain) (pool.handleConnectedBlock settings chain block) := by
  have hsound := ((keptByDeparture_sound settings chain (InTable chain)).removeEach ⟨h, h.rooted⟩
    (confirmedTxids settings block)).1
  refine Sound.revalidateLoop_fed _ _ hsound ?_
  intro txid entry hentry hnot
  exact (hnot (mem_txids.2 (by simp [hentry]))).elim

end Mempool

section runs
variable {F : Type} [LinearOrder F] {settings : MempoolSettings F} {chain : ChainView}
  {pool : Mempool F}
open Mempool

/-- In every run whose additions keep their parents, each input of an entry is an unspent output of
the chain or an output of another entry. -/
theorem closed_of_poolRun (h : PoolRun settings chain pool) : Fed (Unspent chain) pool := by
  induction h with
  | start chain => exact .empty
  | store run gains same ih =>
    unfold Unspent at ih ⊢
    rwa [same]
  | connect run gains block ih => exact (run.sound.gains gains).handleConnectedBlock_fed block
  | @call chain pool run call keeps ih =>
    refine (keeps.apply (keptByDeparture_sound settings chain (Unspent chain)) ?_ ⟨run.sound, ih⟩).2
    intro pool args tx hadd h
    exact h.1.addTransaction h.2 hadd fun c hs hkeeps => hs.unspent_or_parent hkeeps

end runs

theorem closed_of_poolRun_example :
    PoolRun (MempoolExample.settings 1000) MempoolExample.chain MempoolExample.family ∧
      MempoolExample.family.count = 2 ∧
      Mempool.Fed (Mempool.Unspent MempoolExample.chain) MempoolExample.family :=
  ⟨MempoolExample.family_run, by decide +kernel, closed_of_poolRun MempoolExample.family_run⟩

/-- The second transaction replaces the first, whose output it spends: the output is gone and the
input is left. -/
theorem replacement_takes_own_parent :
    ¬ Mempool.Fed (Mempool.Unspent MempoolExample.chain)
      (Mempool.runCalls (MempoolExample.settings 1000)
        [(MempoolExample.chain, .addTransaction MempoolExample.args MempoolExample.first),
          (MempoolExample.chain, .addTransaction MempoolExample.args MempoolExample.second)]) := by
  intro h
  generalize hpool : Mempool.runCalls (MempoolExample.settings 1000) [(MempoolExample.chain,
    .addTransaction MempoolExample.args MempoolExample.first), (MempoolExample.chain,
    .addTransaction MempoolExample.args MempoolExample.second)] = pool at h
  have hstate : ((pool.transactions.get? MempoolExample.secondId).map MempoolEntry.tx,
      (pool.transactions.get? MempoolExample.firstId).isSome) = (some MempoolExample.second, false) := by
    rw [← hpool]
    decide +kernel
  simp only [Prod.mk.injEq, Option.map_eq_some_iff] at hstate
  obtain ⟨⟨entry, hentry, htx⟩, hgone⟩ := hstate
  have hinput : (⟨MempoolExample.firstId, 0, [0x01, 0x51], 0, []⟩ : TxIn) ∈ entry.tx.vin := by
    rw [htx]
    decide +kernel
  rcases h MempoolExample.secondId entry hentry _ hinput with ⟨-, parent, hparent, -⟩ | hunspent
  · simp [hparent] at hgone
  · exact hunspent (by decide +kernel)

end BerzCoin
