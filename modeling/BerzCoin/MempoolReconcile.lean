import BerzCoin.MempoolConfirmation

/-! `_reconcile_mempool_after_reorg`: the connected blocks are handled one after the other, and the
transactions of the disconnected blocks are added again unless the table `transactions` has them. -/
namespace BerzCoin

/-- The result of the reconciliation; `dropped` counts by reason. -/
structure ReorgReport where
  readded : ℕ := 0
  dropped : KeyedRows RejectReason ℕ := .empty
  candidates : ℕ := 0

/-- `dropped[reason] = dropped.get(reason, 0) + 1`. -/
def ReorgReport.drop (report : ReorgReport) (reason : RejectReason) : ReorgReport :=
  { report with dropped := report.dropped.put reason ((report.dropped.get? reason).getD 0 + 1) }

/-- The transactions of the disconnected blocks, which come with the tip first. -/
def readdCandidates (disconnected : List Block) : List Transaction :=
  disconnected.reverse.flatMap fun block => block.transactions.filter fun tx => !tx.isCoinbase

namespace Mempool
variable {F : Type} [LinearOrder F]

section reconcile
variable (settings : MempoolSettings F) (chain : ChainView) (argsOf : ℕ → CallArgs F)

/-- The loop over the candidates, of which `i` have been tried. -/
def readdEach : ℕ → List Transaction → Mempool F → ReorgReport → Mempool F × ReorgReport
  | _, [], pool, report => (pool, report)
  | i, tx :: txs, pool, report =>
    if chain.transactionExists (tx.txid settings.crypto.toHashlib) then
      readdEach (i + 1) txs pool (report.drop .already_in_chain)
    else
      match pool.addTransaction settings chain (argsOf i) tx with
      | (pool', none) => readdEach (i + 1) txs pool' { report with readded := report.readded + 1 }
      | (pool', some reason) => readdEach (i + 1) txs pool' (report.drop reason)

def handleConnectedBlocks (connected : List Block) (pool : Mempool F) : Mempool F :=
  connected.foldl (fun pool block => pool.handleConnectedBlock settings chain block) pool

def reconcileAfterReorg (disconnected connected : List Block) (pool : Mempool F) :
    Mempool F × ReorgReport :=
  readdEach settings chain argsOf 0 (readdCandidates disconnected)
    (handleConnectedBlocks settings chain connected pool)
    { candidates := (readdCandidates disconnected).length }

end reconcile

variable {settings : MempoolSettings F} {chain : ChainView} {pool : Mempool F}

/-- No entry has a row in the table `transactions`. -/
def Unknown (chain : ChainView) (pool : Mempool F) : Prop :=
  ∀ txid, pool.transactions.get? txid ≠ none → chain.transactionExists txid = false

/-- What the calls of the reconciliation keep of the pool. -/
structure Ordered (settings : MempoolSettings F) (pool : Mempool F) : Prop where
  books : pool.Books
  backed : pool.Backed
  keyed : Keyed settings pool

lemma ordered_runCalls (settings : MempoolSettings F) (calls : List (ChainView × MempoolCall F)) :
    Ordered settings (runCalls settings calls) :=
  ⟨(runCalls_backed settings calls).1, (runCalls_backed settings calls).2, runCalls_keyed settings calls⟩

lemma Ordered.handleConnectedBlock (h : Ordered settings pool) (block : Block) :
    Ordered settings (pool.handleConnectedBlock settings chain block) :=
  ⟨keptByRemoval_books.departure.handleConnectedBlock settings chain h.books block,
    keptByRemoval_backed.departure.handleConnectedBlock settings chain h.backed block,
    h.keyed.within ((keptByRemoval_within pool).departure.handleConnectedBlock settings chain
      (.refl pool) block)⟩

lemma Ordered.addTransaction (h : Ordered settings pool) (args : CallArgs F) (tx : Transaction) :
    Ordered settings (pool.addTransaction settings chain args tx).1 :=
  ⟨h.books.addTransaction settings chain args tx, h.backed.addTransaction h.books args,
    h.keyed.addTransaction h.books h.backed args tx⟩

/-- A connected block leaves no entry that the table has. -/
lemma Ordered.handleConnectedBlock_unknown (h : Ordered settings pool) (block : Block) :
    Unknown chain (pool.handleConnectedBlock settings chain block) := by
  intro txid hkept
  obtain ⟨pool', entry, hwithin, hfound, hvalid⟩ := handleConnectedBlock_checked hkept
  have hnew := (validates_ok hvalid).1
  rwa [h.keyed.within hwithin txid entry hfound] at hnew

/-- An added transaction is not in the table. -/
lemma Unknown.addTransaction (hunknown : Unknown chain pool) (h : Ordered settings pool)
    (args : CallArgs F) (tx : Transaction) :
    Unknown chain (pool.addTransaction settings chain args tx).1 := by
  have hwithin {pool' : Mempool F} (hw : pool'.Within pool) : Unknown chain pool' := by
    intro txid hmem
    exact hunknown txid fun hnone => hmem (hw.absent hnone)
  rcases hadd : pool.addTransaction settings chain args tx with ⟨pool', _ | reason⟩
  · obtain ⟨c, hscreen, -, rfl⟩ := addTransaction_none h.books h.backed hadd
    have hs := screen_ok hscreen
    intro txid hmem
    obtain ⟨entry, hentry⟩ := Option.ne_none_iff_exists'.1 hmem
    rcases admitted_get? hentry with ⟨rfl, -⟩ | ⟨entry', hentry', -⟩
    · have hnew := (validateTransaction_ok hs.valid).1
      rwa [← hs.txid_eq] at hnew
    · exact hwithin (leftBy_within settings pool c) txid (by simp [hentry'])
  · rcases addTransaction_some h.books h.backed hadd with ⟨rfl, -⟩ | ⟨c, -, hsame⟩
    · exact hunknown
    · exact hwithin ((Within.of_eq hsame).trans (leftBy_within settings pool c))

lemma readdEach_unknown (argsOf : ℕ → CallArgs F) {i : ℕ} {txs : List Transaction}
    {report : ReorgReport} (hunknown : Unknown chain pool) (h : Ordered settings pool) :
    Unknown chain (readdEach settings chain argsOf i txs pool report).1 := by
  induction txs generalizing i pool report with
  | nil => exact hunknown
  | cons tx txs ih =>
    have hunknown' := hunknown.addTransaction h (argsOf i) tx
    have h' : Ordered settings (pool.addTransaction settings chain (argsOf i) tx).1 :=
      h.addTransaction (argsOf i) tx
    rw [readdEach]
    split_ifs
    · exact ih hunknown h
    · rcases hadd : pool.addTransaction settings chain (argsOf i) tx with ⟨pool', _ | reason⟩
      · rw [hadd] at hunknown' h'
        exact ih hunknown' h'
      · rw [hadd] at hunknown' h'
        exact ih hunknown' h'

/-- A reorganisation that connects a block leaves no transaction in the pool that the table has. -/
lemma Ordered.reconcileAfterReorg_unknown (h : Ordered settings pool) (argsOf : ℕ → CallArgs F)
    (disconnected : List Block) {connected : List Block} (hne : connected ≠ []) :
    Unknown chain (pool.reconcileAfterReorg settings chain argsOf disconnected connected).1 := by
  have hfold : ∀ (connected : List Block) (pool : Mempool F), Ordered settings pool →
      Ordered settings (handleConnectedBlocks settings chain connected pool) ∧
        (connected ≠ [] → Unknown chain (handleConnectedBlocks settings chain connected pool)) := by
    intro connected
    induction connected using List.reverseRecOn with
    | nil => exact fun pool h => ⟨h, fun hnil => absurd rfl hnil⟩
    | append_singleton connected block ih =>
      intro pool h
      have hbefore := (ih pool h).1
      rw [handleConnectedBlocks, List.foldl_append]
      exact ⟨hbefore.handleConnectedBlock block, fun _ => hbefore.handleConnectedBlock_unknown block⟩
  obtain ⟨hordered, hunknown⟩ := hfold connected pool h
  exact readdEach_unknown argsOf (hunknown hne) hordered

end Mempool
end BerzCoin
