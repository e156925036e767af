import BerzCoin.MiningAgreement

/-! Standard outputs against the outputs that the mempool and the block validator take. The policy
wants no value in a data carrier, and the two others take no output without a value. -/
namespace BerzCoin
open Script (Crypto)

/-! An output of a standard transaction. -/
section standard
variable {policy : MempoolPolicy} {tx : Transaction} {txout : TxOut}

lemma isStandardTxOut_of_isStandard (h : policy.isStandard tx = true) (hmem : txout ∈ tx.vout) :
    policy.isStandardTxOut txout = true := by
  simp only [MempoolPolicy.isStandard, Bool.and_eq_true] at h
  obtain ⟨⟨⟨-, hall⟩, -⟩, -⟩ := h
  exact List.all_eq_true.1 hall txout hmem

lemma script_ne_nil_of_standard (h : policy.isStandardTxOut txout = true) : txout.scriptPubkey ≠ [] := by
  intro hnil
  simp [MempoolPolicy.isStandardTxOut, MempoolPolicy.isStandardOutput, hnil] at h

/-- Where dust is refused, the standard outputs without a value are the data carriers. -/
lemma value_eq_zero_iff_of_standard (h : policy.isStandardTxOut txout = true)
    (hdust : 0 < policy.dustThreshold) : txout.value = 0 ↔ txout.isOpReturn = true := by
  rw [MempoolPolicy.isStandardTxOut, Bool.and_eq_true] at h
  by_cases hdata : txout.scriptPubkey.head? = some 0x6a
  · rw [if_pos hdata, decide_eq_true_eq] at h
    exact iff_of_true h.2 (decide_eq_true hdata)
  · rw [if_neg hdata] at h
    refine iff_of_false ?_ (by simpa [TxOut.isOpReturn] using hdata)
    intro hzero
    simp [MempoolPolicy.isDust, hzero, hdust] at h

end standard

/-! The check of the outputs when all else passes. -/
namespace Mempool
variable {F : Type}

/-- What `_validate_transaction` asks besides its loop over the outputs. -/
structure OtherChecks (settings : MempoolSettings F) (chain : ChainView) (pool : Mempool F)
    (tx : Transaction) (ignored : Outpoint → Bool) : Prop where
  noCoinbase : tx.isCoinbase = false
  shape : ¬ (tx.vin = [] ∨ tx.vout = [])
  rules : isConsensusTxValidForHeight chain.params tx chain.nextHeight = .ok ()
  range : BlockValidator.totalOut tx.vout ≤ chain.params.maxMoney
  unknown : chain.transactionExists (tx.txid settings.crypto.toHashlib) = false
  inputs : ∃ totalIn, pool.validateInputs settings chain tx ignored 0 [] tx.vin = .ok totalIn ∧
    BlockValidator.totalOut tx.vout ≤ totalIn

variable {settings : MempoolSettings F} {chain : ChainView} {pool : Mempool F} {tx : Transaction}
  {ignored : Outpoint → Bool}

lemma OtherChecks.validateTransaction_eq (h : OtherChecks settings chain pool tx ignored) :
    pool.validateTransaction settings chain tx ignored = validateOutputs chain.params.maxMoney 0 tx.vout := by
  obtain ⟨totalIn, hinputs, htotal⟩ := h.inputs
  unfold validateTransaction
  simp only [bind, Except.bind, pure, Except.pure, throw, throwThe, MonadExceptOf.throw, h.noCoinbase,
    h.rules, h.unknown, hinputs, if_neg h.shape, if_neg (not_lt.2 htotal), Bool.false_eq_true, if_false]
  cases validateOutputs chain.params.maxMoney 0 tx.vout <;> rfl

/-- Within the limit of the money, outputs with a script pass if they have a value. -/
lemma validateOutputs_ok_iff {maxMoney : ℕ} (vout : List TxOut) (hscript : ∀ txout ∈ vout, txout.scriptPubkey ≠ [])
    (total : ℕ) (hrange : total + BlockValidator.totalOut vout ≤ maxMoney) :
    validateOutputs maxMoney total vout = .ok () ↔ ∀ txout ∈ vout, txout.value ≠ 0 := by
  induction vout generalizing total with
  | nil => exact iff_of_true rfl (List.forall_mem_nil _)
  | cons txout vout ih =>
    have htotal : BlockValidator.totalOut (txout :: vout) =
        txout.value.toNat + BlockValidator.totalOut vout := rfl
    have hrest := ih (fun txout' hmem => hscript txout' (List.mem_cons_of_mem _ hmem))
      (total + txout.value.toNat) (by omega)
    rw [validateOutputs, List.forall_mem_cons, ← hrest]
    by_cases hzero : txout.value = 0
    · rw [if_pos hzero]
      refine iff_of_false ?_ fun h => h.1 hzero
      intro h
      cases h
    · rw [if_neg hzero, if_neg (hscript txout List.mem_cons_self), if_neg (by omega)]
      exact (and_iff_right hzero).symm

end Mempool

namespace BlockValidator

/-- What `validate_transaction` asks besides its loop over the outputs. -/
structure OtherChecks (C : Crypto) (params : ConsensusParams) (getUtxo : Outpoint → Option UtxoRow)
    (tx : Transaction) (height : ℕ) (isCoinbase : Bool) : Prop where
  version : ¬ (params.isConsensusFeatureActive .HARDFORK_TX_V2 height && tx.version < 2) = true
  kind : tx.isCoinbase = isCoinbase
  shape : ¬ (tx.vin = [] ∨ tx.vout = [])
  size : tx.size ≤ params.maxBlockSize
  range : totalOut tx.vout ≤ params.maxMoney
  inputs : isCoinbase = false → validateInputs C params getUtxo tx height 0 [] tx.vin = true ∧
    totalOut tx.vout ≤ totalIn getUtxo tx.vin

variable {C : Crypto} {params : ConsensusParams} {getUtxo : Outpoint → Option UtxoRow} {tx : Transaction}
  {height : ℕ} {isCoinbase : Bool}

lemma OtherChecks.validateTransaction_eq (h : OtherChecks C params getUtxo tx height isCoinbase) :
    validateTransaction C params getUtxo tx height isCoinbase = tx.vout.all (validateOutput params) := by
  have hpos := tx.size_pos
  have hsize : ¬ (tx.size = 0 ∨ params.maxBlockSize < tx.size) := by
    have hle := h.size
    omega
  have hmoney : ¬ params.limits.maxMoney < totalOut tx.vout := not_lt.2 h.range
  rw [validateTransaction, if_neg h.version, if_neg (not_not.2 h.kind), if_neg h.shape, if_neg hsize]
  cases isCoinbase with
  | true =>
    simp only [Bool.not_true, Bool.false_and, Bool.false_eq_true, if_false, if_neg hmoney]
    cases tx.vout.all (validateOutput params) <;> rfl
  | false =>
    obtain ⟨hinputs, htotal⟩ := h.inputs rfl
    simp only [hinputs, Bool.not_true, Bool.and_false, Bool.false_eq_true, if_false, if_neg hmoney,
      decide_eq_false (not_lt.2 htotal)]
    cases tx.vout.all (validateOutput params) <;> rfl

lemma value_le_totalOut {vout : List TxOut} {txout : TxOut} (hmem : txout ∈ vout) :
    txout.value.toNat ≤ totalOut vout :=
  List.single_le_sum (fun _ _ => Nat.zero_le _) _ (List.mem_map_of_mem hmem)

lemma validateOutputs_all_iff {vout : List TxOut} (hscript : ∀ txout ∈ vout, txout.scriptPubkey ≠ [])
    (hrange : totalOut vout ≤ params.maxMoney) :
    vout.all (validateOutput params) = true ↔ ∀ txout ∈ vout, txout.value ≠ 0 := by
  rw [List.all_eq_true]
  refine forall₂_congr ?_
  intro txout hmem
  have hvalue : txout.value.toNat ≤ params.limits.maxMoney := (value_le_totalOut hmem).trans hrange
  simp [validateOutput, hvalue, hscript txout hmem]

end BlockValidator

/-- A standard transaction that passes all other checks of the mempool, or of the block validator,
is taken exactly where every output has a value. Data carriers have none. -/
theorem standard_outputs_iff {F : Type} {policy : MempoolPolicy} {tx : Transaction}
    (hstandard : policy.isStandard tx = true) :
    (∀ (settings : MempoolSettings F) (chain : ChainView) (pool : Mempool F) (ignored : Outpoint → Bool),
        Mempool.OtherChecks settings chain pool tx ignored →
          (pool.validateTransaction settings chain tx ignored = .ok () ↔
            ∀ txout ∈ tx.vout, txout.value ≠ 0)) ∧
      (∀ (C : Crypto) (params : ConsensusParams) (getUtxo : Outpoint → Option UtxoRow) (height : ℕ)
          (isCoinbase : Bool), BlockValidator.OtherChecks C params getUtxo tx height isCoinbase →
          (BlockValidator.validateTransaction C params getUtxo tx height isCoinbase = true ↔
            ∀ txout ∈ tx.vout, txout.value ≠ 0)) ∧
      (0 < policy.dustThreshold → ∀ txout ∈ tx.vout, (txout.value = 0 ↔ txout.isOpReturn = true)) := by
  have houtput : ∀ txout ∈ tx.vout, policy.isStandardTxOut txout = true :=
    fun txout hmem => isStandardTxOut_of_isStandard hstandard hmem
  have hscript : ∀ txout ∈ tx.vout, txout.scriptPubkey ≠ [] :=
    fun txout hmem => script_ne_nil_of_standard (houtput txout hmem)
  refine ⟨?_, ?_, ?_⟩
  · intro settings chain pool ignored hchecks
    rw [hchecks.validateTransaction_eq]
    exact Mempool.validateOutputs_ok_iff tx.vout hscript 0 (by simpa using hchecks.range)
  · intro C params getUtxo height isCoinbase hchecks
    rw [hchecks.validateTransaction_eq]
    exact BlockValidator.validateOutputs_all_iff hscript hchecks.range
  · intro hdust txout hmem
    exact value_eq_zero_iff_of_standard (houtput txout hmem) hdust

/-! The coin is spent without and with a data carrier. -/
namespace MempoolExample

def carrier : Transaction :=
  { version := 2
    vin := [⟨coin, 0, [], 0, []⟩]
    vout := [⟨90000, payToScript⟩, ⟨0, [0x6a, 0x01, 0x42]⟩]
    locktime := 0 }

def carrierSettings : MempoolSettings ℚ :=
  settingsWith 1000 [(carrier.serialize false,
    0x6381fb56cd6f73f546e308219bf56b2b13137e3ec8f61e04363c66681736140e,
    0x62046525079cbf8e4c5b2cab6634ebfb22bd9be5f4b3ab62b72f74c0a57be1f4)]

/-- Every spent outpoint counts. -/
def noneIgnored (_ : Outpoint) : Bool := false

lemma otherChecks_mempool : ∀ tx ∈ [first, carrier],
    Mempool.OtherChecks carrierSettings chain Mempool.empty tx noneIgnored := by
  intro tx htx
  have hchecks : ∀ tx ∈ [first, carrier], tx.isCoinbase = false ∧ ¬ (tx.vin = [] ∨ tx.vout = []) ∧
      (Mempool.isConsensusTxValidForHeight chain.params tx chain.nextHeight).isOk = true ∧
      BlockValidator.totalOut tx.vout ≤ chain.params.maxMoney ∧
      chain.transactionExists (tx.txid carrierSettings.crypto.toHashlib) = false ∧
      BlockValidator.totalOut tx.vout ≤ 100000 := by decide +kernel
  have hinputs : ∀ tx ∈ [first, carrier], (Mempool.empty.validateInputs carrierSettings chain tx noneIgnored
      0 [] tx.vin).toOption = some 100000 := by decide +kernel
  obtain ⟨hcoinbase, hshape, hrules, hrange, hunknown, htotal⟩ := hchecks tx htx
  refine ⟨hcoinbase, hshape, ?_, hrange, hunknown, 100000, ?_, htotal⟩
  · cases hresult : Mempool.isConsensusTxValidForHeight chain.params tx chain.nextHeight with
    | error reason =>
      rw [hresult] at hrules
      cases hrules
    | ok u => rfl
  · have hsome := hinputs tx htx
    cases hresult : Mempool.empty.validateInputs carrierSettings chain tx noneIgnored 0 [] tx.vin with
    | error reason =>
      rw [hresult] at hsome
      cases hsome
    | ok totalIn =>
      rw [hresult] at hsome
      rw [Option.some.inj hsome]

lemma otherChecks_block : ∀ tx ∈ [first, carrier],
    BlockValidator.OtherChecks carrierSettings.crypto chain.params chain.getUtxo tx 201 false := by
  intro tx htx
  have hchecks : ∀ tx ∈ [first, carrier],
      ¬ (chain.params.isConsensusFeatureActive .HARDFORK_TX_V2 201 && tx.version < 2) = true ∧
      tx.isCoinbase = false ∧ ¬ (tx.vin = [] ∨ tx.vout = []) ∧ tx.size ≤ chain.params.maxBlockSize ∧
      BlockValidator.totalOut tx.vout ≤ chain.params.maxMoney ∧
      BlockValidator.validateInputs carrierSettings.crypto chain.params chain.getUtxo tx 201 0 [] tx.vin = true ∧
      BlockValidator.totalOut tx.vout ≤ BlockValidator.totalIn chain.getUtxo tx.vin := by decide +kernel
  obtain ⟨hversion, hkind, hshape, hsize, hrange, hinputs, htotal⟩ := hchecks tx htx
  exact ⟨hversion, hkind, hshape, hsize, hrange, fun _ => ⟨hinputs, htotal⟩⟩

end MempoolExample

open MempoolExample in
/-- The spend without a data carrier is taken by both. -/
theorem standard_outputs_iff_first :
    Mempool.empty.validateTransaction carrierSettings chain first noneIgnored = .ok () ∧
      BlockValidator.validateTransaction carrierSettings.crypto chain.params chain.getUtxo first 201 false =
        true := by
  have hstandard : carrierSettings.policy.isStandard first = true := by decide +kernel
  have hvalue : ∀ txout ∈ first.vout, txout.value ≠ 0 := by decide
  obtain ⟨hmempool, hblock, -⟩ := @standard_outputs_iff ℚ _ _ hstandard
  exact ⟨(hmempool _ _ _ _ (otherChecks_mempool first (by simp))).2 hvalue,
    (hblock _ _ _ _ _ (otherChecks_block first (by simp))).2 hvalue⟩

open MempoolExample in
/-- The spend with a data carrier is standard, passes all other checks, and is taken by neither. -/
theorem carrier_not_taken :
    carrierSettings.policy.isStandard carrier = true ∧
      Mempool.OtherChecks carrierSettings chain Mempool.empty carrier noneIgnored ∧
      BlockValidator.OtherChecks carrierSettings.crypto chain.params chain.getUtxo carrier 201 false ∧
      Mempool.empty.validateTransaction carrierSettings chain carrier noneIgnored = .error .zero_output ∧
      BlockValidator.validateTransaction carrierSettings.crypto chain.params chain.getUtxo carrier 201 false =
        false := by
  have hmempool := otherChecks_mempool carrier (by simp)
  have hblock := otherChecks_block carrier (by simp)
  refine ⟨by decide +kernel, hmempool, hblock, ?_, ?_⟩
  · rw [hmempool.validateTransaction_eq]
    decide
  · rw [hblock.validateTransaction_eq]
    decide

end BerzCoin
