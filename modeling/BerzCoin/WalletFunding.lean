import BerzCoin.CryptoSignatures
import BerzCoin.MempoolPolicy
import BerzCoin.SubsetSums
import BerzCoin.ValidationConnect
import BerzCoin.WalletAddresses
import BerzCoin.WalletSpending

/-! `send_to_address`: the coins that a payment spends, the fee that it leaves, and its change. -/
namespace BerzCoin
open SubsetSums
open Script (getItem calculateLegacySighash SIGHASH_ALL)

def Coin.amount (coin : Coin) : ℕ := coin.2.value.1

namespace TransactionBuilder
variable (H : Hashlib)

/-- A transaction before its numbers are packed. -/
structure Draft where
  vin : List Outpoint
  vout : List (ℕ × Bytes)
  deriving DecidableEq, Repr

def createOutput (address : Text) (amount : ℕ) : Except PyError (ℕ × Bytes) :=
  if amount = 0 then .error (.valueError "Output amount must be positive")
  else do return (amount, ← createScriptPubkey H address)

/-- The inputs are `(txid, vout, amount)`. What is left without a change address goes to the fee. -/
def createTransaction (inputs : List (Bytes × ℕ × ℕ)) (outputs : List (Text × ℕ))
    (changeAddress : Option Text) (fee : Option ℕ) : Except PyError Draft :=
  if inputs = [] then .error (.valueError "No inputs provided")
  else do
    let totalIn := (inputs.map fun (_, _, amount) => amount).sum
    let vin := inputs.map fun (txid, vout, _) => (txid, vout)
    let vout ← outputs.mapM fun (address, amount) => createOutput H address amount
    let totalOut := (outputs.map Prod.snd).sum
    let fee := fee.getD (10 + inputs.length * 150 + outputs.length * 34)
    let address := changeAddress.getD []
    if address ≠ [] ∧ totalOut + fee < totalIn then do
      let scriptPubkey ← createScriptPubkey H address
      return ⟨vin, vout ++ [(totalIn - totalOut - fee, scriptPubkey)]⟩
    else return ⟨vin, vout⟩

/-- `struct.pack` of the numbers of a transaction. -/
def Draft.pack (draft : Draft) : Except PyError Transaction :=
  if (∀ outpoint ∈ draft.vin, outpoint.2 < 2 ^ 32) ∧ ∀ output ∈ draft.vout, output.1 < 2 ^ 64 then
    .ok
      { version := 2
        vin := draft.vin.map fun (txid, vout) => ⟨txid, UInt32.ofNat vout, [], 0xffffffff, []⟩
        vout := draft.vout.map fun (value, scriptPubkey) => ⟨UInt64.ofNat value, scriptPubkey⟩
        locktime := 0 }
  else .error (.structError "argument out of range")

end TransactionBuilder

namespace WalletHandlers

def estimateFeeSats (numInputs numOutputs : ℕ) (satPerVbyte : ℤ) : ℕ :=
  let estimatedSize := 10 + max 1 numInputs * 150 + max 1 numOutputs * 34
  max 1 (estimatedSize * (max 1 satPerVbyte).toNat)

/-- `_select_spendable_inputs`; the singles are all at least the target. -/
def selectSpendableInputs (shuffle : List Coin → List Coin) (utxos : List Coin)
    (amountSats baselineFee : ℕ) : List Coin :=
  if utxos = [] then []
  else
    let target := amountSats + baselineFee
    let candidates := shuffle utxos
    let singles := candidates.filter fun u => target ≤ u.amount
    match singles.mergeSort fun u u' => u.amount - target ≤ u'.amount - target with
    | single :: _ => [single]
    | [] => upTo Coin.amount target 0 (candidates.mergeSort fun u u' => u'.amount ≤ u.amount)

end WalletHandlers

/-- How `send_to_address` fails. -/
inductive SendError
  | noUtxos
  | noSpendableUtxos (maturity : ℤ) (immatureSats : ℕ)
  | insufficientSpendableFunds (immatureSats : ℕ)
  | insufficientFunds
  | other (e : PyError)
  deriving DecidableEq, Repr

namespace SendError

/-- What is raised. -/
def toPyError : SendError → PyError
  | noUtxos => .valueError "No UTXOs found"
  | noSpendableUtxos maturity immatureSats =>
    .valueError ("No spendable UTXOs yet (coinbase maturity: " ++ toString maturity ++
      ", immature=" ++ formatBerz immatureSats ++ " BERZ)")
  | insufficientSpendableFunds immatureSats =>
    .valueError ("Insufficient spendable funds" ++
      if 0 < immatureSats then " (" ++ formatBerz immatureSats ++ " BERZ immature coinbase)" else "")
  | insufficientFunds => .valueError "Insufficient funds"
  | other e => e

/-- The error says that the coins do not suffice. -/
def LackOfFunds : SendError → Prop
  | other _ => False
  | _ => True

end SendError

/-- `required_fee`: what a relay asks for a transaction of this size. -/
def MempoolPolicy.relayFee (policy : MempoolPolicy) (tx : Transaction) : ℕ :=
  max (policy.minRelayFee * tx.size) policy.minRelayFee

def Transaction.outputTotal (tx : Transaction) : ℕ := (tx.vout.map fun txout => txout.value.toNat).sum

/-- A call of `send_to_address`: what it finds in the node, its arguments, and what it draws. -/
structure SendCall (Sealed : Type) where
  manager : SimpleWalletManager Sealed
  chain : WalletChain
  policy : MempoolPolicy
  network : Network
  address : Text
  /-- `int(amount * 100000000)`. -/
  satoshis : ℤ
  feeRate : Option ℤ
  now : ℚ
  shuffle : List Coin → List Coin
  shuffle_perm : ∀ coins, (shuffle coins).Perm coins
  /-- `PrivateKey.sign` in the first and in the second signing, which can draw other nonces. -/
  sign : ℕ → ℕ → Bytes → Except PyError (ℕ × ℕ)

namespace SendCall
variable {Sealed : Type} (H : Hashlib) (call : SendCall Sealed)

/-- The checks before the coins are read. -/
def checkedWallet : Except PyError SimpleWallet :=
  match call.manager.activeWallet with
  | none => .error (.valueError "No active wallet")
  | some wallet =>
    if wallet.watchOnly then
      .error (.valueError "Active wallet is watch-only and cannot sign transactions")
    else do
      WalletHandlers.validateDestinationAddress H call.address call.network
      if call.satoshis ≤ 0 then .error (.valueError "Amount must be positive") else return wallet

/-- The amount of a call that is admitted. -/
def amount : ℕ := call.satoshis.toNat

/-- `target_fee`, for one input and one output. -/
def targetFee : ℕ :=
  max call.policy.minRelayFee (WalletHandlers.estimateFeeSats 1 1 (call.feeRate.getD 1))

/-- `spendable_utxos`. -/
def spendableUtxos (wallet : SimpleWallet) : List Coin :=
  (call.chain.getUtxosForAddress wallet.address 1000).filter fun coin => !call.chain.immature coin

/-- `selected`. -/
def selected (wallet : SimpleWallet) : List Coin :=
  WalletHandlers.selectSpendableInputs call.shuffle (call.spendableUtxos wallet) call.amount
    call.targetFee

/-- The coins are read and selected. -/
def selectFunds (wallet : SimpleWallet) : Except SendError (List Coin) :=
  let utxos := call.chain.getUtxosForAddress wallet.address 1000
  let immatureSats := total Coin.amount (utxos.filter call.chain.immature)
  if utxos = [] then .error .noUtxos
  else if call.spendableUtxos wallet = [] then
    .error (.noSpendableUtxos call.chain.coinbaseMaturity immatureSats)
  else if total Coin.amount (call.selected wallet) < call.amount + call.targetFee then
    .error (.insufficientSpendableFunds immatureSats)
  else .ok (call.selected wallet)

/-- `target_fee` with change below the dust threshold folded into it. -/
def foldedFee (selectedAmount : ℕ) : ℕ :=
  let preChange := selectedAmount - call.amount - call.targetFee
  if 0 < preChange ∧ call.policy.isDust preChange then call.targetFee + preChange
  else call.targetFee

/-- One turn of `_sign_transaction`: the coin is looked up among those selected, then in the
chain. -/
def signInput (selected : List Coin) (sign : Bytes → Except PyError (ℕ × ℕ)) (pubkey : Bytes)
    (tx : Transaction) (idx : ℕ) : Except PyError Transaction := do
  let txin ← getItem tx.vin idx
  match (selected.reverse.lookup txin.outpoint).or (call.chain.utxo.get? txin.outpoint) with
  | none => .error (.valueError ("Missing UTXO for input " ++ toString idx))
  | some utxo => do
    let sighash ← calculateLegacySighash H tx idx SIGHASH_ALL utxo.scriptPubkey
    let der ← Signatures.signMessageHash sign sighash
    let signature := der ++ [UInt8.ofNat SIGHASH_ALL]
    let signatureLength ← Signatures.oneByte signature.length
    let pubkeyLength ← Signatures.oneByte pubkey.length
    let scriptSig := signatureLength ++ signature ++ pubkeyLength ++ pubkey
    return { tx with vin := tx.vin.set idx { txin with scriptSig } }

/-- `create_transaction` with a fee, and `_sign_transaction`, which is the first to pack it. -/
def signed (signing : ℕ) (wallet : SimpleWallet) (coins : List Coin) (fee : ℕ) :
    Except PyError Transaction := do
  let draft ← TransactionBuilder.createTransaction H
    (coins.map fun coin => (coin.1.1, coin.1.2, coin.amount)) [(call.address, call.amount)]
    (some wallet.address) (some fee)
  let (privateKey, pubkey) ← call.manager.signingKeys call.now
  let tx ← draft.pack
  (List.range tx.vin.length).foldlM
    (call.signInput H coins (call.sign signing privateKey) pubkey) tx

/-- `send_to_address` up to the transaction that it hands to the node. The keys are those of the
first signing in both signings. -/
def sendToAddress : Except SendError Transaction := do
  let wallet ← (call.checkedWallet H).mapError .other
  let selected ← call.selectFunds wallet
  let selectedAmount := total Coin.amount selected
  let tx ← (call.signed H 0 wallet selected (call.foldedFee selectedAmount)).mapError .other
  let requiredFee := call.policy.relayFee tx
  let currentFee : ℤ := selectedAmount - tx.outputTotal
  if currentFee < requiredFee then
    if selectedAmount < call.amount + requiredFee then .error .insufficientFunds
    else (call.signed H 1 wallet selected requiredFee).mapError .other
  else .ok tx

end SendCall

/-! The coins that are selected. -/
namespace WalletHandlers
open List
variable {shuffle : List Coin → List Coin} {utxos : List Coin} {amountSats baselineFee : ℕ}

/-- One coin that reaches the target, or the most valuable coins up to it. -/
lemma selectSpendableInputs_cases (hperm : shuffle utxos ~ utxos) :
    (∃ single ∈ utxos, amountSats + baselineFee ≤ single.amount ∧
      selectSpendableInputs shuffle utxos amountSats baselineFee = [single]) ∨
    ∃ sorted, sorted ~ utxos ∧ selectSpendableInputs shuffle utxos amountSats baselineFee =
      upTo Coin.amount (amountSats + baselineFee) 0 sorted := by
  unfold selectSpendableInputs
  by_cases hnil : utxos = []
  · right
    exact ⟨[], by rw [hnil], by rw [if_pos hnil]; rfl⟩
  · rw [if_neg hnil]
    dsimp only
    split
    · next single singles hsort =>
      left
      have hmem : single ∈ single :: singles := mem_cons_self
      rw [← hsort, mem_mergeSort, mem_filter] at hmem
      exact ⟨single, hperm.mem_iff.1 hmem.1, of_decide_eq_true hmem.2, rfl⟩
    · right
      exact ⟨_, (mergeSort_perm _ _).trans hperm, rfl⟩

lemma selectSpendableInputs_subperm (hperm : shuffle utxos ~ utxos) :
    selectSpendableInputs shuffle utxos amountSats baselineFee <+~ utxos := by
  obtain ⟨single, hsingle, -, heq⟩ | ⟨sorted, hsorted, heq⟩ := selectSpendableInputs_cases hperm
  · rw [heq]
    exact singleton_subperm_iff.2 hsingle
  · rw [heq]
    exact (upTo_beginning _ _ _).sublist.subperm.trans hsorted.subperm

/-- The selection reaches its target whenever the coins do. -/
lemma selectSpendableInputs_reaches_iff (hperm : shuffle utxos ~ utxos) :
    amountSats + baselineFee ≤
        total Coin.amount (selectSpendableInputs shuffle utxos amountSats baselineFee) ↔
      amountSats + baselineFee ≤ total Coin.amount utxos := by
  have hle : total Coin.amount (selectSpendableInputs shuffle utxos amountSats baselineFee) ≤
      total Coin.amount utxos := total_subperm_le (selectSpendableInputs_subperm hperm)
  obtain ⟨single, -, hreaches, heq⟩ | ⟨sorted, hsorted, heq⟩ :=
    @selectSpendableInputs_cases _ _ amountSats baselineFee hperm
  · rw [heq, total_cons, total_nil] at hle ⊢
    exact ⟨fun h => h.trans hle, fun _ => hreaches⟩
  · have hiff := @upTo_reaches_iff _ Coin.amount (amountSats + baselineFee) 0 sorted
    rwa [← heq, total_perm hsorted, Nat.zero_add, Nat.zero_add] at hiff

end WalletHandlers

/-! What is built and signed. -/
section building
variable {H : Hashlib}

namespace TransactionBuilder
variable {inputs : List (Bytes × ℕ × ℕ)} {outputs : List (Text × ℕ)}

lemma createOutput_ok {address : Text} {amount : ℕ} {output : ℕ × Bytes}
    (h : createOutput H address amount = .ok output) : output.1 = amount := by
  unfold createOutput at h
  split_ifs at h
  obtain ⟨script, -, houtput⟩ := except_bind_eq_ok h
  cases houtput
  rfl

lemma mapM_createOutput_ok {vout : List (ℕ × Bytes)}
    (h : (outputs.mapM fun (address, amount) => createOutput H address amount) = .ok vout) :
    vout.map Prod.fst = outputs.map Prod.snd := by
  induction outputs generalizing vout with
  | nil =>
    cases h
    rfl
  | cons output outputs ih =>
    rw [List.mapM_cons] at h
    obtain ⟨first, hfirst, h⟩ := except_bind_eq_ok h
    obtain ⟨rest, hrest, h⟩ := except_bind_eq_ok h
    cases h
    rw [List.map_cons, List.map_cons, createOutput_ok hfirst, ih hrest]

/-- The inputs are those asked for, and the outputs are the payments and the change. -/
lemma createTransaction_ok {changeAddress : Text} {fee : ℕ} {draft : Draft}
    (h : createTransaction H inputs outputs (some changeAddress) (some fee) = .ok draft) :
    draft.vin = inputs.map (fun (txid, vout, _) => (txid, vout)) ∧
      draft.vout.map Prod.fst = outputs.map Prod.snd ++
        if changeAddress ≠ [] ∧
            (outputs.map Prod.snd).sum + fee < (inputs.map fun (_, _, amount) => amount).sum then
          [(inputs.map fun (_, _, amount) => amount).sum - (outputs.map Prod.snd).sum - fee]
        else [] := by
  unfold createTransaction at h
  rw [if_neg (by rintro hnil; rw [if_pos hnil] at h; cases h)] at h
  obtain ⟨vout, hvout, h⟩ := except_bind_eq_ok h
  simp only [Option.getD_some] at h
  split_ifs at h ⊢ with hchange
  · obtain ⟨script, -, h⟩ := except_bind_eq_ok h
    cases h
    refine ⟨rfl, ?_⟩
    rw [List.map_append, mapM_createOutput_ok hvout]
    rfl
  · cases h
    rw [List.append_nil]
    exact ⟨rfl, mapM_createOutput_ok hvout⟩

lemma Draft.pack_ok {draft : Draft} {tx : Transaction} (h : draft.pack = .ok tx) :
    tx.vin.map TxIn.outpoint = draft.vin ∧
      tx.vout.map (fun txout => txout.value.toNat) = draft.vout.map Prod.fst := by
  unfold pack at h
  split_ifs at h with hrange
  cases h
  obtain ⟨hindex, hvalue⟩ := hrange
  constructor
  · rw [List.map_map]
    conv_rhs => rw [← List.map_id draft.vin]
    apply List.map_congr_left
    intro outpoint hmem
    simp only [Function.comp_apply, TxIn.outpoint,
      UInt32.toNat_ofNat_of_lt' (hindex outpoint hmem), id]
  · rw [List.map_map]
    apply List.map_congr_left
    intro output hmem
    simp only [Function.comp_apply, UInt64.toNat_ofNat_of_lt' (hvalue output hmem)]

end TransactionBuilder

namespace SendCall
variable {Sealed : Type} {call : SendCall Sealed}

lemma map_set_of_eq {α β : Type} {f : α → β} {items : List α} {i : ℕ} {a b : α}
    (h : items[i]? = some a) (hf : f b = f a) : (items.set i b).map f = items.map f := by
  obtain ⟨hlt, rfl⟩ := List.getElem?_eq_some_iff.1 h
  have hlt' : i < (items.map f).length := by simpa using hlt
  have hsame : f b = (items.map f)[i] := by rw [hf, List.getElem_map]
  rw [List.map_set, hsame, List.set_getElem_self]

/-- Signing leaves the outputs and the coins that are spent. -/
lemma signInput_ok {selected : List Coin} {sign : Bytes → Except PyError (ℕ × ℕ)} {pubkey : Bytes}
    {tx tx' : Transaction} {idx : ℕ}
    (h : call.signInput H selected sign pubkey tx idx = .ok tx') :
    tx'.vin.map TxIn.outpoint = tx.vin.map TxIn.outpoint ∧ tx'.vout = tx.vout := by
  obtain ⟨txin, htxin, h⟩ := except_bind_eq_ok h
  dsimp only at h
  split at h
  · cases h
  · obtain ⟨sighash, -, h⟩ := except_bind_eq_ok h
    obtain ⟨der, -, h⟩ := except_bind_eq_ok h
    obtain ⟨signatureLength, -, h⟩ := except_bind_eq_ok h
    obtain ⟨pubkeyLength, -, h⟩ := except_bind_eq_ok h
    cases h
    refine ⟨?_, rfl⟩
    have hidx : tx.vin[idx]? = some txin := by
      unfold getItem at htxin
      split at htxin
      · next htxin' =>
        cases htxin
        exact htxin'
      · cases htxin
    exact map_set_of_eq hidx rfl

lemma foldlM_signInput_ok {selected : List Coin} {sign : Bytes → Except PyError (ℕ × ℕ)}
    {pubkey : Bytes} {indices : List ℕ} {tx tx' : Transaction}
    (h : indices.foldlM (call.signInput H selected sign pubkey) tx = .ok tx') :
    tx'.vin.map TxIn.outpoint = tx.vin.map TxIn.outpoint ∧ tx'.vout = tx.vout := by
  induction indices generalizing tx with
  | nil =>
    cases h
    exact ⟨rfl, rfl⟩
  | cons idx indices ih =>
    rw [List.foldlM_cons] at h
    obtain ⟨next, hnext, h⟩ := except_bind_eq_ok h
    obtain ⟨hvin, hvout⟩ := ih h
    obtain ⟨hvin', hvout'⟩ := signInput_ok hnext
    exact ⟨hvin.trans hvin', hvout.trans hvout'⟩

end SendCall
end building

/-- The values of the coins that a transaction spends. -/
def WalletChain.inputTotal (chain : WalletChain) (tx : Transaction) : ℕ :=
  (tx.vin.map fun txin => ((chain.utxo.get? txin.outpoint).map fun row => row.value.1).getD 0).sum

namespace SendCall
variable {Sealed : Type} (H : Hashlib) (call : SendCall Sealed)

/-- All coins of the active address that can be spent. -/
def allSpendable (wallet : SimpleWallet) : List Coin :=
  call.chain.utxo.rows.filter fun coin =>
    coin.2.address = some wallet.address && !call.chain.immature coin

/-- The coins together cover the amount and the relay fee of a transaction that spends them all. -/
def Covered (wallet : SimpleWallet) : Prop :=
  let coins := call.allSpendable wallet
  ∃ signing tx, call.signed H signing wallet coins (total Coin.amount coins - call.amount) = .ok tx ∧
    call.amount + call.policy.relayFee tx ≤ total Coin.amount coins

/-- The relay fee is paid for the signed size, and no change is dust. -/
structure WellFunded (tx : Transaction) : Prop where
  fee : call.policy.relayFee tx + tx.outputTotal ≤ call.chain.inputTotal tx
  change : ∀ txout ∈ tx.vout.drop 1, ¬call.policy.isDust txout.value.toNat

structure Funded : Prop where
  funds : ∀ wallet, call.manager.activeWallet = some wallet → call.Covered H wallet →
    ∀ e, call.sendToAddress H = .error e → ¬e.LackOfFunds
  built : ∀ tx, call.sendToAddress H = .ok tx → call.WellFunded tx

/-- The change of a transaction with this fee; there is none without an address for it. -/
def changeOf (wallet : SimpleWallet) (selectedAmount fee : ℕ) : ℕ :=
  if wallet.address = [] then 0 else selectedAmount - call.amount - fee

section signed
variable {H} {call} {wallet : SimpleWallet} {coins : List Coin} {signing fee : ℕ} {tx : Transaction}

lemma signed_ok (h : call.signed H signing wallet coins fee = .ok tx) :
    tx.vin.map TxIn.outpoint = coins.map Prod.fst ∧
      tx.vout.map (fun txout => txout.value.toNat) = call.amount ::
        if call.changeOf wallet (total Coin.amount coins) fee = 0 then []
        else [call.changeOf wallet (total Coin.amount coins) fee] := by
  obtain ⟨draft, hdraft, h⟩ := except_bind_eq_ok h
  obtain ⟨⟨privateKey, pubkey⟩, -, h⟩ := except_bind_eq_ok h
  obtain ⟨unsigned, hpack, h⟩ := except_bind_eq_ok h
  obtain ⟨hvin, hvout⟩ := foldlM_signInput_ok h
  obtain ⟨hinputs, hvalues⟩ := TransactionBuilder.Draft.pack_ok hpack
  obtain ⟨hcoins, hpayments⟩ := TransactionBuilder.createTransaction_ok hdraft
  rw [hvin, hvout, hinputs, hvalues, hcoins, hpayments]
  simp only [List.map_map, List.map_cons, List.map_nil, List.sum_cons, List.sum_nil, Nat.add_zero]
  have htotal : (coins.map ((fun (_, _, amount) => amount) ∘
      fun coin : Coin => (coin.1.1, coin.1.2, coin.amount))).sum = total Coin.amount coins := rfl
  refine ⟨rfl, ?_⟩
  rw [htotal, changeOf]
  by_cases haddress : wallet.address = []
  · simp [haddress]
  · by_cases hchange : call.amount + fee < total Coin.amount coins
    · have hne : total Coin.amount coins - call.amount - fee ≠ 0 := by omega
      simp [haddress, hchange, hne]
    · have hzero : total Coin.amount coins - call.amount - fee = 0 := by omega
      simp [haddress, hchange, hzero]

lemma inputTotal_signed (hcoins : coins ⊆ call.chain.utxo.rows)
    (h : call.signed H signing wallet coins fee = .ok tx) :
    call.chain.inputTotal tx = total Coin.amount coins := by
  have hmap : call.chain.inputTotal tx = ((tx.vin.map TxIn.outpoint).map fun outpoint =>
      ((call.chain.utxo.get? outpoint).map fun row => row.value.1).getD 0).sum := by
    rw [List.map_map]
    rfl
  rw [hmap, (signed_ok h).1, List.map_map, total]
  congr 1
  apply List.map_congr_left
  intro coin hcoin
  simp only [Function.comp_apply, KeyedRows.get?_of_mem_rows (hcoins hcoin), Option.map_some,
    Option.getD_some]
  rfl

lemma outputTotal_signed (h : call.signed H signing wallet coins fee = .ok tx) :
    tx.outputTotal = call.amount + call.changeOf wallet (total Coin.amount coins) fee := by
  rw [Transaction.outputTotal, (signed_ok h).2]
  split_ifs with hzero
  · simp [hzero]
  · simp

lemma wellFunded_signed_iff (hcoins : coins ⊆ call.chain.utxo.rows)
    (h : call.signed H signing wallet coins fee = .ok tx) :
    call.WellFunded tx ↔
      call.policy.relayFee tx +
          (call.amount + call.changeOf wallet (total Coin.amount coins) fee) ≤
        total Coin.amount coins ∧
      (call.changeOf wallet (total Coin.amount coins) fee ≠ 0 →
        ¬call.policy.isDust (call.changeOf wallet (total Coin.amount coins) fee)) := by
  have hvout := (signed_ok h).2
  have houtput := outputTotal_signed h
  have hchange : (tx.vout.drop 1).map (fun txout => txout.value.toNat) =
      if call.changeOf wallet (total Coin.amount coins) fee = 0 then []
      else [call.changeOf wallet (total Coin.amount coins) fee] := by
    rw [List.map_drop, hvout]
    rfl
  have hdust : (∀ txout ∈ tx.vout.drop 1, ¬call.policy.isDust txout.value.toNat) ↔
      ∀ value ∈ (tx.vout.drop 1).map (fun txout => txout.value.toNat),
        ¬call.policy.isDust value :=
    (List.forall_mem_map (P := fun value => ¬call.policy.isDust value)).symm
  rw [hchange] at hdust
  constructor
  · rintro ⟨hfee, hnodust⟩
    rw [inputTotal_signed hcoins h, houtput] at hfee
    refine ⟨hfee, fun hne => ?_⟩
    exact hdust.1 hnodust _ (by simp [hne])
  · rintro ⟨hfee, hnodust⟩
    refine ⟨?_, hdust.2 ?_⟩
    · rwa [inputTotal_signed hcoins h, houtput]
    · split_ifs with hzero
      · simp
      · simpa using hnodust hzero

end signed

/-- What the values of the coins and the signed sizes have to be like. `read` is about the estimate
for one input and one output, `first` about the coins selected for it, and `second` about the change
once the fee is raised to that of the first signed size. -/
structure Suffices (wallet : SimpleWallet) : Prop where
  read : total Coin.amount (call.spendableUtxos wallet) < call.amount + call.targetFee →
    ¬call.Covered H wallet
  first : call.amount + call.targetFee ≤ total Coin.amount (call.spendableUtxos wallet) →
    ∀ tx, call.signed H 0 wallet (call.selected wallet)
        (call.foldedFee (total Coin.amount (call.selected wallet))) = .ok tx →
      total Coin.amount (call.selected wallet) < call.amount + call.policy.relayFee tx →
        ¬call.Covered H wallet
  second : call.amount + call.targetFee ≤ total Coin.amount (call.spendableUtxos wallet) →
    ∀ tx, call.signed H 0 wallet (call.selected wallet)
        (call.foldedFee (total Coin.amount (call.selected wallet))) = .ok tx →
      call.amount + call.policy.relayFee tx ≤ total Coin.amount (call.selected wallet) →
      call.foldedFee (total Coin.amount (call.selected wallet)) < call.policy.relayFee tx →
      wallet.address ≠ [] →
        ∀ tx', call.signed H 1 wallet (call.selected wallet) (call.policy.relayFee tx) = .ok tx' →
          call.policy.relayFee tx' ≤ call.policy.relayFee tx ∧
            (total Coin.amount (call.selected wallet) ≠ call.amount + call.policy.relayFee tx →
              call.amount + call.policy.relayFee tx + call.policy.dustThreshold ≤
                total Coin.amount (call.selected wallet))

section cases
variable {H} {call} {wallet : SimpleWallet}

lemma selected_subset : call.selected wallet ⊆ call.chain.utxo.rows := by
  intro coin hcoin
  have hread : coin ∈ call.spendableUtxos wallet :=
    (WalletHandlers.selectSpendableInputs_subperm (call.shuffle_perm _)).subset hcoin
  have hmem := List.mem_of_mem_take (List.mem_filter.1 hread).1
  rw [List.mem_mergeSort, List.mem_filter] at hmem
  exact hmem.1

lemma selected_reaches_iff :
    call.amount + call.targetFee ≤ total Coin.amount (call.selected wallet) ↔
      call.amount + call.targetFee ≤ total Coin.amount (call.spendableUtxos wallet) :=
  WalletHandlers.selectSpendableInputs_reaches_iff (call.shuffle_perm _)

lemma active_of_checked (h : call.checkedWallet H = .ok wallet) :
    call.manager.activeWallet = some wallet ∧ 0 < call.amount := by
  unfold checkedWallet at h
  split at h
  · cases h
  · next active hactive =>
    split_ifs at h with hwatch hpositive
    · obtain ⟨_, -, h⟩ := except_bind_eq_ok h
      cases h
    · obtain ⟨_, -, h⟩ := except_bind_eq_ok h
      cases h
      refine ⟨hactive, ?_⟩
      unfold amount
      omega

lemma selectFunds_error
    (h : total Coin.amount (call.spendableUtxos wallet) < call.amount + call.targetFee) :
    ∃ e, call.selectFunds wallet = .error e ∧ e.LackOfFunds := by
  have hselected : total Coin.amount (call.selected wallet) < call.amount + call.targetFee :=
    not_le.1 (mt selected_reaches_iff.1 (not_le.2 h))
  unfold selectFunds
  dsimp only
  split_ifs
  · exact ⟨_, rfl, trivial⟩
  · exact ⟨_, rfl, trivial⟩
  · exact ⟨_, rfl, trivial⟩

lemma selectFunds_ok (hpositive : 0 < call.amount)
    (h : call.amount + call.targetFee ≤ total Coin.amount (call.spendableUtxos wallet)) :
    call.selectFunds wallet = .ok (call.selected wallet) := by
  have hspendable : call.spendableUtxos wallet ≠ [] := by
    intro hnil
    rw [hnil, total_nil] at h
    omega
  have hutxos : call.chain.getUtxosForAddress wallet.address 1000 ≠ [] := by
    intro hnil
    exact hspendable (by rw [spendableUtxos, hnil]; rfl)
  unfold selectFunds
  dsimp only
  rw [if_neg hutxos, if_neg hspendable, if_neg (not_lt.2 (selected_reaches_iff.2 h))]

/-- The coins that a call reads are those that the manager lists as spendable; where there are none,
both raise the same. -/
theorem manager_lists_spendableUtxos (hactive : call.manager.activeWallet = some wallet)
    (hwatch : wallet.watchOnly = false) :
    call.manager.spendableUtxos call.chain =
      if call.spendableUtxos wallet = [] then
        (call.selectFunds wallet).mapError SendError.toPyError
      else .ok (call.spendableUtxos wallet) := by
  have hread : (call.chain.getUtxosForAddress wallet.address 1000).filter
      (fun coin => !call.chain.immature coin) = call.spendableUtxos wallet := rfl
  simp only [SimpleWalletManager.spendableUtxos, hactive, hwatch, Bool.false_eq_true, if_false, hread]
  unfold selectFunds
  by_cases hutxos : call.chain.getUtxosForAddress wallet.address 1000 = []
  · have hnone : call.spendableUtxos wallet = [] := by rw [spendableUtxos, hutxos]; rfl
    rw [if_pos hutxos, if_pos hnone, if_pos hutxos]
    rfl
  · by_cases hspendable : call.spendableUtxos wallet = []
    · rw [if_neg hutxos, if_pos hspendable, if_pos hspendable, if_neg hutxos, if_pos hspendable]
      rfl
    · rw [if_neg hutxos, if_neg hspendable, if_neg hspendable]

lemma funded_of_other {e : PyError} (h : call.sendToAddress H = .error (.other e)) :
    call.Funded H := by
  constructor
  · intro _ _ _ e' he'
    rw [h] at he'
    cases he'
    exact id
  · intro tx htx
    rw [h] at htx
    cases htx

lemma funded_of_lack {e : SendError} (hactive : call.manager.activeWallet = some wallet)
    (h : call.sendToAddress H = .error e) (hlack : e.LackOfFunds) :
    call.Funded H ↔ ¬call.Covered H wallet := by
  constructor
  · intro hfunded hcovered
    exact hfunded.funds wallet hactive hcovered e h hlack
  · intro huncovered
    constructor
    · intro wallet' hactive' hcovered
      rw [hactive] at hactive'
      cases hactive'
      exact absurd hcovered huncovered
    · intro tx htx
      rw [h] at htx
      cases htx

lemma funded_of_ok {tx : Transaction} (h : call.sendToAddress H = .ok tx) :
    call.Funded H ↔ call.WellFunded tx := by
  constructor
  · intro hfunded
    exact hfunded.built tx h
  · intro hbuilt
    constructor
    · intro _ _ _ e he
      rw [h] at he
      cases he
    · intro tx' htx'
      rw [h] at htx'
      cases htx'
      exact hbuilt

/-- The first change is none, or it is no dust. -/
lemma changeOf_foldedFee {selectedAmount : ℕ} (wallet : SimpleWallet)
    (h : call.amount + call.targetFee ≤ selectedAmount) :
    call.amount + call.foldedFee selectedAmount ≤ selectedAmount ∧
      (call.changeOf wallet selectedAmount (call.foldedFee selectedAmount) ≠ 0 →
        ¬call.policy.isDust (call.changeOf wallet selectedAmount (call.foldedFee selectedAmount))) := by
  unfold foldedFee changeOf
  dsimp only
  by_cases hdust : 0 < selectedAmount - call.amount - call.targetFee ∧
      call.policy.isDust (selectedAmount - call.amount - call.targetFee)
  · rw [if_pos hdust]
    refine ⟨by omega, ?_⟩
    split_ifs
    · exact fun hne => absurd rfl hne
    · intro hne
      omega
  · rw [if_neg hdust]
    refine ⟨by omega, ?_⟩
    split_ifs
    · exact fun hne => absurd rfl hne
    · intro hne hchange
      exact hdust ⟨Nat.pos_of_ne_zero hne, hchange⟩

/-- What the call does once its coins are selected and signed for the first time. -/
lemma sendToAddress_first {tx : Transaction} (hchecked : call.checkedWallet H = .ok wallet)
    (hread : call.amount + call.targetFee ≤ total Coin.amount (call.spendableUtxos wallet))
    (hfirst : call.signed H 0 wallet (call.selected wallet)
      (call.foldedFee (total Coin.amount (call.selected wallet))) = .ok tx) :
    call.sendToAddress H =
      if total Coin.amount (call.selected wallet) < call.policy.relayFee tx + (call.amount +
          call.changeOf wallet (total Coin.amount (call.selected wallet))
            (call.foldedFee (total Coin.amount (call.selected wallet)))) then
        if total Coin.amount (call.selected wallet) < call.amount + call.policy.relayFee tx then
          .error .insufficientFunds
        else (call.signed H 1 wallet (call.selected wallet) (call.policy.relayFee tx)).mapError .other
      else .ok tx := by
  have hfunds := selectFunds_ok (active_of_checked hchecked).2 hread
  have houtput := outputTotal_signed hfirst
  unfold sendToAddress
  simp only [hchecked, Except.mapError, bind, Except.bind, hfunds, hfirst, houtput]
  congr 1
  apply propext
  push_cast
  omega

/-- The second signing comes only when there is change to take the fee from. -/
lemma raised_iff {tx : Transaction} {selectedAmount : ℕ}
    (hreach : call.amount + call.targetFee ≤ selectedAmount)
    (hcover : call.amount + call.policy.relayFee tx ≤ selectedAmount) :
    selectedAmount < call.policy.relayFee tx + (call.amount +
        call.changeOf wallet selectedAmount (call.foldedFee selectedAmount)) ↔
      call.foldedFee selectedAmount < call.policy.relayFee tx ∧ wallet.address ≠ [] := by
  have hfolded := (changeOf_foldedFee wallet hreach).1
  unfold changeOf
  split_ifs with haddress
  · simp only [haddress, ne_eq, not_true, and_false, iff_false]
    omega
  · simp only [haddress, ne_eq, not_false_eq_true, and_true]
    omega

/-- A transaction of the second signing pays its fee if it is no larger than the first. -/
lemma wellFunded_second_iff {tx tx' : Transaction} (haddress : wallet.address ≠ [])
    (hcover : call.amount + call.policy.relayFee tx ≤ total Coin.amount (call.selected wallet))
    (h : call.signed H 1 wallet (call.selected wallet) (call.policy.relayFee tx) = .ok tx') :
    call.WellFunded tx' ↔ call.policy.relayFee tx' ≤ call.policy.relayFee tx ∧
      (total Coin.amount (call.selected wallet) ≠ call.amount + call.policy.relayFee tx →
        call.amount + call.policy.relayFee tx + call.policy.dustThreshold ≤
          total Coin.amount (call.selected wallet)) := by
  rw [wellFunded_signed_iff selected_subset h]
  simp only [changeOf, if_neg haddress, MempoolPolicy.isDust, decide_eq_true_eq, not_lt]
  omega

section first
variable {tx : Transaction} (hchecked : call.checkedWallet H = .ok wallet)
  (hread : call.amount + call.targetFee ≤ total Coin.amount (call.spendableUtxos wallet))
  (hfirst : call.signed H 0 wallet (call.selected wallet)
    (call.foldedFee (total Coin.amount (call.selected wallet))) = .ok tx)
include hread hfirst

lemma suffices_iff_second
    (hcover : call.amount + call.policy.relayFee tx ≤ total Coin.amount (call.selected wallet)) :
    call.Suffices H wallet ↔
      (call.foldedFee (total Coin.amount (call.selected wallet)) < call.policy.relayFee tx →
        wallet.address ≠ [] → ∀ tx', call.signed H 1 wallet (call.selected wallet)
          (call.policy.relayFee tx) = .ok tx' → call.WellFunded tx') := by
  constructor
  · intro h hraised haddress tx' htx'
    exact (wellFunded_second_iff haddress hcover htx').2
      (h.second hread tx hfirst hcover hraised haddress tx' htx')
  · intro h
    refine ⟨fun hlt => absurd hread (not_le.2 hlt), ?_, ?_⟩
    · intro _ tx' htx' hlt
      rw [hfirst] at htx'
      cases htx'
      exact absurd hcover (not_le.2 hlt)
    · intro _ tx' htx' _ hraised haddress tx'' htx''
      rw [hfirst] at htx'
      cases htx'
      exact (wellFunded_second_iff haddress hcover htx'').1 (h hraised haddress tx'' htx'')

include hchecked

/-- The selected coins do not cover the fee for the signed size. -/
lemma funded_short_iff
    (hshort : total Coin.amount (call.selected wallet) < call.amount + call.policy.relayFee tx) :
    call.Funded H ↔ call.Suffices H wallet := by
  have hsend := sendToAddress_first hchecked hread hfirst
  rw [if_pos (by omega), if_pos hshort] at hsend
  rw [funded_of_lack (active_of_checked hchecked).1 hsend trivial]
  constructor
  · intro huncovered
    refine ⟨fun _ => huncovered, fun _ _ _ _ => huncovered, ?_⟩
    intro _ tx' htx' hcover
    rw [hfirst] at htx'
    cases htx'
    exact absurd hcover (not_le.2 hshort)
  · intro h
    exact h.first hread tx hfirst hshort

lemma funded_raised_iff
    (hcover : call.amount + call.policy.relayFee tx ≤ total Coin.amount (call.selected wallet))
    (hraised : call.foldedFee (total Coin.amount (call.selected wallet)) <
      call.policy.relayFee tx ∧ wallet.address ≠ []) :
    call.Funded H ↔ ∀ tx', call.signed H 1 wallet (call.selected wallet)
      (call.policy.relayFee tx) = .ok tx' → call.WellFunded tx' := by
  have hsend := sendToAddress_first hchecked hread hfirst
  rw [if_pos ((raised_iff (selected_reaches_iff.2 hread) hcover).2 hraised),
    if_neg (not_lt.2 hcover)] at hsend
  cases hsecond : call.signed H 1 wallet (call.selected wallet) (call.policy.relayFee tx) with
  | error e =>
    rw [hsecond] at hsend
    refine iff_of_true (funded_of_other hsend) ?_
    intro tx' htx'
    cases htx'
  | ok tx' =>
    rw [hsecond] at hsend
    rw [funded_of_ok hsend]
    constructor
    · intro hbuilt tx'' htx''
      cases htx''
      exact hbuilt
    · intro h
      exact h tx' rfl

lemma funded_first_iff : call.Funded H ↔ call.Suffices H wallet := by
  have hreach := selected_reaches_iff.2 hread
  by_cases hcover : call.amount + call.policy.relayFee tx ≤ total Coin.amount (call.selected wallet)
  · rw [suffices_iff_second hread hfirst hcover]
    by_cases hraised : call.foldedFee (total Coin.amount (call.selected wallet)) <
        call.policy.relayFee tx ∧ wallet.address ≠ []
    · rw [funded_raised_iff hchecked hread hfirst hcover hraised]
      exact ⟨fun h _ _ => h, fun h => h hraised.1 hraised.2⟩
    · have hsend := sendToAddress_first hchecked hread hfirst
      have hkept := mt (raised_iff hreach hcover).1 hraised
      rw [if_neg hkept] at hsend
      refine iff_of_true ((funded_of_ok hsend).2 ?_) fun hlt haddress =>
        absurd ⟨hlt, haddress⟩ hraised
      rw [wellFunded_signed_iff selected_subset hfirst]
      exact ⟨not_lt.1 hkept, (changeOf_foldedFee wallet hreach).2⟩
  · exact funded_short_iff hchecked hread hfirst (not_le.1 hcover)

end first

/-- The estimates and the coins have to suffice for the sizes that come out of the signing. -/
theorem funded_iff :
    call.Funded H ↔ ∀ wallet, call.checkedWallet H = .ok wallet → call.Suffices H wallet := by
  cases hchecked : call.checkedWallet H with
  | error e =>
    have hsend : call.sendToAddress H = .error (.other e) := by
      unfold sendToAddress
      rw [hchecked]
      rfl
    simp [funded_of_other hsend]
  | ok wallet =>
    have hwallet : (∀ wallet', Except.ok wallet = (.ok wallet' : Except PyError SimpleWallet) →
        call.Suffices H wallet') ↔ call.Suffices H wallet := by simp
    rw [hwallet]
    obtain ⟨hactive, hpositive⟩ := active_of_checked hchecked
    by_cases hread : total Coin.amount (call.spendableUtxos wallet) < call.amount + call.targetFee
    · obtain ⟨e, hfunds, hlack⟩ := selectFunds_error hread
      have hsend : call.sendToAddress H = .error e := by
        unfold sendToAddress
        simp only [hchecked, Except.mapError, bind, Except.bind, hfunds]
      rw [funded_of_lack hactive hsend hlack]
      constructor
      · intro huncovered
        exact ⟨fun _ => huncovered, fun hle => absurd hread (not_lt.2 hle),
          fun hle => absurd hread (not_lt.2 hle)⟩
      · intro hsuffices
        exact hsuffices.read hread
    · have hle := not_lt.1 hread
      cases hfirst : call.signed H 0 wallet (call.selected wallet)
          (call.foldedFee (total Coin.amount (call.selected wallet))) with
      | error e =>
        have hsend : call.sendToAddress H = .error (.other e) := by
          unfold sendToAddress
          simp only [hchecked, Except.mapError, bind, Except.bind, selectFunds_ok hpositive hle, hfirst]
        have hsuffices : call.Suffices H wallet := by
          refine ⟨fun hlt => absurd hlt hread, ?_, ?_⟩
          · intro _ tx htx
            rw [hfirst] at htx
            cases htx
          · intro _ tx htx
            rw [hfirst] at htx
            cases htx
        exact iff_of_true (funded_of_other hsend) hsuffices
      | ok tx => exact funded_first_iff hchecked hle hfirst

end cases
end SendCall

/-! A payment whose change is above the dust threshold until its fee is raised. -/
namespace FundingExample
open SpendingExample

/-- With what the two addresses and the two signings need. -/
def hashlib : Hashlib := Hashlib.ofDigests [
  (beBytes 21 0x00d986ed01b7a22225a70edbf2ba7cfb63a15cb3aa,
    beBytes 32 0xa998ae69d110e6fca4d4b7652e7be3a519098830c2fc56a31428fbdca0f7eb65),
  (beBytes 32 0xa998ae69d110e6fca4d4b7652e7be3a519098830c2fc56a31428fbdca0f7eb65,
    beBytes 32 0x2b4daf193cb841bf5b60aacfc3bebcecc6c9b35ae6dc83281c4223764afb8c7c),
  (beBytes 21 0x006ae1301cf44ca525751d1763ac4fef12d1153986,
    beBytes 32 0x4b219abc952e73269f1a83fe6a4cdcbcdf1bc9117acf754449c5aa316b85f237),
  (beBytes 32 0x4b219abc952e73269f1a83fe6a4cdcbcdf1bc9117acf754449c5aa316b85f237,
    beBytes 32 0x94f950580e1e832ac0d24521072402317431e912c3a66f49a448b16217f1e1dc),
  (beBytes 148
    0x02000000010101010101010101010101010101010101010101010101010101010101010101000000001976a914d986ed01b7a22225a70edbf2ba7cfb63a15cb3aa88acffffffff02a0860100000000001976a9146ae1301cf44ca525751d1763ac4fef12d115398688ac22020000000000001976a914d986ed01b7a22225a70edbf2ba7cfb63a15cb3aa88ac0000000001000000,
    beBytes 32 0x351f661df0c5e45c3be67e5d840bd6bcfce52fb37c7a23f0b053c0d5a118b33b),
  (beBytes 32 0x351f661df0c5e45c3be67e5d840bd6bcfce52fb37c7a23f0b053c0d5a118b33b,
    beBytes 32 0x6c968268bdb461655c48a458fd3eee4dec1c225bc622441b9caabb330777141b),
  (beBytes 148
    0x02000000010101010101010101010101010101010101010101010101010101010101010101000000001976a914d986ed01b7a22225a70edbf2ba7cfb63a15cb3aa88acffffffff02a0860100000000001976a9146ae1301cf44ca525751d1763ac4fef12d115398688ac03020000000000001976a914d986ed01b7a22225a70edbf2ba7cfb63a15cb3aa88ac0000000001000000,
    beBytes 32 0x092ece3da99372e0fe356622d4789adccd682f9bd6114c75ac76fc39d3a0f739),
  (beBytes 32 0x092ece3da99372e0fe356622d4789adccd682f9bd6114c75ac76fc39d3a0f739,
    beBytes 32 0xcf542fd8b3bb07ad497b038f22f7f36ac79fc5654c79ce23d513dc7af69cbaae)]

def signatures : List (Bytes × ℕ × ℕ) := [
  (beBytes 32 0x6c968268bdb461655c48a458fd3eee4dec1c225bc622441b9caabb330777141b,
    0x5906b1439b994465c9f3d4fdf7f09a4ab9ae0864262b0140def210148b097533,
    0x33d317253eb8237966728677df7c33d68db21bffc35a018bea5113dd7a0e17b7),
  (beBytes 32 0xcf542fd8b3bb07ad497b038f22f7f36ac79fc5654c79ce23d513dc7af69cbaae,
    0x52910334e12eeb8842dd97e4a76e8440fee38d6310238e6c4ac8723074360cb5,
    0x64bc87e819456bcda5e0728413c32edb7f236e36e9d7da7dc1b60ea7430ba6aa)]

def wallet : SimpleWallet where
  privateKeyHex := privateKey
  publicKeyHex := "03aaeb52dd7494c361049de67cc680e83ebcbbbdbeb13637d92cd845f70308af5e".toList
  address := first
  mnemonic := []
  walletType := "imported".toList
  walletId := first
  derivationPath := "imported".toList
  coinType := 0
  account := 0
  externalIndex := 0
  internalIndex := 0
  watchOnly := false
  xpub := []
  label := []
  trackedAddresses := [first]
  network := .mainnet
  createdAt := 0

lemma coin_lt : 100740 < 2 ^ 63 := by decide

/-- A payment of 100000 from one coin of 100740, to the second address. -/
def call : SendCall (Text × SimpleWallet) where
  manager := { SimpleWalletManager.opened .mainnet KeyedRows.empty [] 300 with
    activeWallet := some wallet
    activePrivateKey := some privateKey
    unlockedUntil := 300 }
  chain :=
    { utxo := KeyedRows.empty.insertOrReplace (List.replicate 32 1, 0)
        ⟨⟨100740, coin_lt⟩, [0x76, 0xa9, 0x14] ++
          beBytes 20 0xd986ed01b7a22225a70edbf2ba7cfb63a15cb3aa ++ [0x88, 0xac], 1, false, some first⟩
      bestHeight := 1
      coinbaseMaturity := 100 }
  policy := {}
  network := .mainnet
  address := second
  satoshis := 100000
  feeRate := none
  now := 1
  shuffle := id
  shuffle_perm := fun _ => .refl _
  sign := fun _ _ messageHash => .ok ((signatures.lookup messageHash).getD (0, 0))

/-- The first signing leaves 546 for the change, and the fee for its size makes it 515. -/
lemma call_values : (call.sendToAddress hashlib).toOption.map
    (fun tx => tx.vout.map fun txout => txout.value.toNat) = some [100000, 515] := by
  decide +kernel

theorem not_funded_call : ¬call.Funded hashlib := by
  intro h
  have hvalues := call_values
  cases hsend : call.sendToAddress hashlib with
  | error e =>
    rw [hsend] at hvalues
    cases hvalues
  | ok tx =>
    rw [hsend] at hvalues
    have hall : tx.vout.map (fun txout => txout.value.toNat) = [100000, 515] :=
      Option.some.inj hvalues
    have hvout : (tx.vout.drop 1).map (fun txout => txout.value.toNat) = [515] := by
      rw [List.map_drop, hall]
      rfl
    have hdust := (List.forall_mem_map (P := fun value => ¬call.policy.isDust value)).2
      (h.built tx hsend).change
    rw [hvout] at hdust
    exact hdust 515 (List.mem_singleton_self _) (by decide)

end FundingExample
end BerzCoin
