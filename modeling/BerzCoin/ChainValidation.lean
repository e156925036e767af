import BerzCoin.ConsensusPow
import BerzCoin.ScriptVerify
import BerzCoin.ValidationConnect

/-! The checks of `BlockValidator`. They only read the UTXO table, which is given as the lookup
function `getUtxo`, and the block index. -/
namespace BerzCoin
open Script (Crypto)

/-- `ValidationLimits.from_params`. -/
structure ValidationLimits where
  coinbaseScriptSigMinLen : ℕ := 2
  coinbaseScriptSigMaxLen : ℕ := 100
  maxFutureBlockTimeSeconds : ℕ := 2 * 60 * 60
  medianTimePastWindow : ℕ := 11
  coinbaseMaturity : ℕ
  maxMoney : ℕ

def ConsensusParams.limits (params : ConsensusParams) : ValidationLimits :=
  { coinbaseMaturity := params.coinbaseMaturity, maxMoney := params.maxMoney }

namespace BlockValidator
variable (C : Crypto) (params : ConsensusParams) (getUtxo : Outpoint → Option UtxoRow)

/-- The loop over the inputs of a transaction that is no coinbase. -/
def validateInputs (tx : Transaction) (height : ℕ) : ℕ → List Outpoint → List TxIn → Bool
  | _, _, [] => true
  | idx, seen, txin :: vin =>
    if txin.outpoint ∈ seen then false
    else
      match getUtxo txin.outpoint with
      | none => false
      | some utxo =>
        if utxo.isCoinbase && (height : ℤ) - utxo.height < params.limits.coinbaseMaturity then false
        else if !Script.verifyInputScript C tx idx txin.scriptSig utxo.scriptPubkey utxo.value.1
            Script.ScriptFlags.STANDARD_VERIFY_FLAGS then false
        else validateInputs tx height (idx + 1) (txin.outpoint :: seen) vin

def validateOutput (txout : TxOut) : Bool :=
  txout.value ≠ 0 && txout.value.toNat ≤ params.limits.maxMoney && txout.scriptPubkey ≠ []

def totalOut (vout : List TxOut) : ℕ := (vout.map fun txout => txout.value.toNat).sum

/-- Inputs that are not found count nothing. -/
def totalIn (vin : List TxIn) : ℕ :=
  (vin.map fun txin => ((getUtxo txin.outpoint).map fun utxo => utxo.value.1).getD 0).sum

def validateTransaction (tx : Transaction) (height : ℕ) (isCoinbase : Bool) : Bool :=
  if params.isConsensusFeatureActive .HARDFORK_TX_V2 height && tx.version < 2 then false
  else if tx.isCoinbase ≠ isCoinbase then false
  else if tx.vin = [] ∨ tx.vout = [] then false
  else if tx.size = 0 ∨ params.maxBlockSize < tx.size then false
  else if !isCoinbase && !validateInputs C params getUtxo tx height 0 [] tx.vin then false
  else if !tx.vout.all (validateOutput params) then false
  else if params.limits.maxMoney < totalOut tx.vout then false
  else if !isCoinbase && decide (totalIn getUtxo tx.vin < totalOut tx.vout) then false
  else true

/-- The inputs of one transaction against the outpoints that the block has spent so far;
`none` is a double spend. -/
def recordSpent : List Outpoint → List TxIn → Option (List Outpoint)
  | spent, [] => some spent
  | spent, txin :: vin =>
    if txin.outpoint ∈ spent then none else recordSpent (txin.outpoint :: spent) vin

/-- The loop of `validate_transactions` over the transactions after the first. -/
def validateRest (height : ℕ) : List Outpoint → List Transaction → Bool
  | _, [] => true
  | spent, tx :: txs =>
    validateTransaction C params getUtxo tx height false &&
      match recordSpent spent tx.vin with
      | none => false
      | some spent => validateRest height spent txs

def validateTransactions (block : Block) (height : ℕ) : Bool :=
  match block.transactions with
  | [] => false
  | coinbase :: rest =>
    block.transactions.countP Transaction.isCoinbase = 1 &&
      validateTransaction C params getUtxo coinbase height true &&
      validateRest C params getUtxo height [] rest &&
      (block.transactions.map (·.txid C.toHashlib)).Nodup

/-- The fee of a transaction; `none` where the source returns -1. -/
def txFee (tx : Transaction) : Option ℕ :=
  if tx.vin.any fun txin => (getUtxo txin.outpoint).isNone then none
  else if totalIn getUtxo tx.vin < totalOut tx.vout then none
  else some (totalIn getUtxo tx.vin - totalOut tx.vout)

def calculateFees : List Transaction → Option ℕ
  | [] => some 0
  | tx :: txs =>
    match txFee getUtxo tx, calculateFees txs with
    | some fee, some fees => some (fee + fees)
    | _, _ => none

/-- A negative fee total is refused. -/
def validateSubsidy (block : Block) (height : ℕ) : Except PyError Bool :=
  match block.transactions with
  | [] => .error (.indexError "list index out of range")
  | coinbase :: rest =>
    match calculateFees getUtxo rest with
    | none => .ok false
    | some totalFees => .ok (totalOut coinbase.vout ≤ getBlockSubsidy height params + totalFees)

/-! Header, coinbase script, signature operations and timestamps. -/
section header
variable (b : BlockIndex)

/-- The headers at `count` heights from `start` on; `none` where the height index has a gap. -/
def headersFrom (start count : ℕ) : Option (List BlockHeader) :=
  (List.range' start count).mapM fun h => (b.getBlockByHeight h).map BlockIndexEntry.header

/-- `None` of the source means that any bits are accepted. -/
def expectedBitsForHeight (height : ℕ) (prevEntry : BlockIndexEntry) : Option ℕ :=
  let interval := max 1 params.retargetIntervalBlocks
  if height = 0 then none
  else if params.powNoRetargeting ∨ height % interval ≠ 0 ∨ height < interval then
    some prevEntry.header.bits.toNat
  else
    match headersFrom b (height - interval) interval with
    | none => none
    | some [] => some prevEntry.header.bits.toNat
    | some (first :: rest) =>
      some (ProofOfWork.nextWorkRequired params first ((first :: rest).getLast (List.cons_ne_nil _ _)))

def validateHeader (header : BlockHeader) (height : ℕ) : Bool :=
  if header.version < 1 ∨ 0x3fffffff < header.version then false
  else if !ProofOfWork.validate params C.toHashlib header then false
  else if 0x7fffffff < header.timestamp then false
  else if height = 0 then true
  else
    match b.getBlock header.prevBlockHash with
    | none => false
    | some prevEntry =>
      match expectedBitsForHeight params b height prevEntry with
      | none => true
      | some expectedBits => header.bits.toNat = expectedBits

/-- The timestamps of the window before `height`; heights without a block are left out. -/
def pastTimes (height : ℕ) : List ℕ :=
  let window := max 1 params.limits.medianTimePastWindow
  (List.range' (height - window) (height - (height - window))).filterMap fun h =>
    (b.getBlockByHeight h).map fun entry => entry.header.timestamp.toNat

def medianTimePast (height : ℕ) : ℕ :=
  let times := (pastTimes params b height).insertionSort (· ≤ ·)
  (times[times.length / 2]?).getD 0

/-- `now` is `time.time()` in whole seconds; a timestamp is compared with it alike. -/
def validateTimestamps (now : ℕ) (block : Block) (height : ℕ) : Bool :=
  if block.header.timestamp.toNat ≤ medianTimePast params b height then false
  else block.header.timestamp.toNat ≤ now + params.limits.maxFutureBlockTimeSeconds

end header

def validateSize (block : Block) : Bool :=
  block.size ≤ params.maxBlockSize && block.weight ≤ params.maxBlockWeight

/-- `height.to_bytes((height.bit_length() + 7) // 8, 'little')`. -/
def heightBytes (height : ℕ) : Bytes := leBytes ((Nat.size height + 7) / 8) height

/-- Without the strict rule a wrong push length is only logged. -/
def validateCoinbase (coinbase : Transaction) (height : ℕ) : Bool :=
  match coinbase.vin with
  | [txin] =>
    let script := txin.scriptSig
    let push := heightBytes height
    if script.length < params.limits.coinbaseScriptSigMinLen ∨
        params.limits.coinbaseScriptSigMaxLen < script.length then false
    else if height < params.bip34Height then true
    else if script.length < push.length then false
    else if params.isConsensusFeatureActive .SOFTFORK_BIP34_STRICT height then
      1 + push.length ≤ script.length && (script.map UInt8.toNat).head? = some push.length &&
        slice script 1 push.length = push
    else true
  | _ => false

/-- The check signature opcodes of a script, counted byte by byte. -/
def scriptSigops (script : Bytes) : ℕ :=
  (script.map fun byte =>
    if byte = 0xac ∨ byte = 0xad then 1 else if byte = 0xae ∨ byte = 0xaf then 20 else 0).sum

def countSigops (tx : Transaction) : ℕ :=
  (tx.vin.map fun txin => scriptSigops txin.scriptSig).sum +
    (tx.vout.map fun txout => scriptSigops txout.scriptPubkey).sum

def validateSigops (block : Block) : Bool :=
  (block.transactions.map countSigops).sum ≤ params.maxBlockSigops

def validateBlock (b : BlockIndex) (now : ℕ) (block : Block) (height : ℕ) : Except PyError Bool :=
  if !validateHeader C params b block.header height then .ok false
  else if !validateSize params block then .ok false
  else if !block.verifyMerkleRoot C.toHashlib then .ok false
  else if !validateTransactions C params getUtxo block height then .ok false
  else
    match block.transactions with
    | [] => .error (.indexError "list index out of range")
    | coinbase :: _ =>
      if !validateCoinbase params coinbase height then .ok false
      else
        match validateSubsidy params getUtxo block height with
        | .error e => .error e
        | .ok subsidyOk =>
          .ok (subsidyOk && validateSigops params block && validateTimestamps params b now block height)

section accepted
variable {C : Crypto} {params : ConsensusParams} {getUtxo : Outpoint → Option UtxoRow}
variable {b : BlockIndex} {now height : ℕ} {block : Block}

/-- What the rules on header, transactions, subsidy and time say of an accepted block. -/
lemma validateBlock_rules (h : validateBlock C params getUtxo b now block height = .ok true) :
    validateHeader C params b block.header height = true ∧
      validateTransactions C params getUtxo block height = true ∧
      validateSubsidy params getUtxo block height = .ok true ∧
      validateTimestamps params b now block height = true := by
  unfold validateBlock at h
  split_ifs at h with hheader hsize hroot htxs
  · simp at h
  · simp at h
  · simp at h
  · simp at h
  · refine ⟨by simpa using hheader, by simpa using htxs, ?_⟩
    cases hblock : block.transactions with
    | nil => simp [hblock] at h
    | cons coinbase rest =>
      simp only [hblock] at h
      split_ifs at h with hcb
      · simp at h
      · cases hsub : validateSubsidy params getUtxo block height with
        | error e => simp [hsub] at h
        | ok subsidyOk =>
          simp only [hsub, Except.ok.injEq, Bool.and_eq_true] at h
          rw [h.1.1]
          exact ⟨rfl, h.2⟩

lemma validateBlock_true (h : validateBlock C params getUtxo b now block height = .ok true) :
    validateTransactions C params getUtxo block height = true ∧
      validateSubsidy params getUtxo block height = .ok true := by
  obtain ⟨-, htxs, hsubsidy, -⟩ := validateBlock_rules h
  exact ⟨htxs, hsubsidy⟩

end accepted

end BlockValidator
end BerzCoin
