import BerzCoin.ChainValidation

/-! `ConsensusRules`: the checks on a block and on a transaction that do not need the UTXO table.
They raise where a check fails. Output values are looked up with `outputValueLookup`. -/
namespace BerzCoin
open BlockValidator

namespace ConsensusRules
variable (H : Hashlib) (params : ConsensusParams) (outputValueLookup : Outpoint → Option ℕ)

def require (ok : Bool) (message : String) : Except PyError Unit :=
  if ok then .ok () else .error (.valueError message)

/-- `now` is `current_time()`. -/
def validateBlockHeader (now : ℕ) (header : BlockHeader) : Except PyError Unit := do
  require (1 ≤ header.version && header.version ≤ 0x3fffffff)
    ("Invalid version: " ++ toString header.version.toNat)
  require (header.timestamp.toNat ≤ now + 7200)
    ("Invalid timestamp: " ++ toString header.timestamp.toNat)
  require (0 < ProofOfWork.getTarget params header.bits)
    ("Invalid compact difficulty bits: 0x" ++ hex (beBytes 4 header.bits.toNat))
  require (header.isValidPow H (ProofOfWork.getTarget params header.bits))
    ("Proof of work failed: hash " ++ hex (header.hashHex H))

def validateTransaction (tx : Transaction) (height : ℕ) : Except PyError Unit := do
  require (!(params.isConsensusFeatureActive .HARDFORK_TX_V2 height && tx.version < 2))
    "Transaction version below hardfork_v2 minimum"
  require (tx.vin ≠ [] && tx.vout ≠ []) "Empty transaction"
  require (totalOut tx.vout ≤ params.maxMoney) "Total output exceeds max supply"
  if tx.isCoinbase then
    require (tx.vin.length = 1) "Coinbase must have exactly one input"
    require (tx.vin.all fun txin => 2 ≤ txin.scriptSig.length && txin.scriptSig.length ≤ 100)
      "Invalid coinbase script length"
  else
    require (tx.vin.all fun txin => txin.prevTxHash ≠ zeroHash)
      "Non-coinbase input with zero prev_tx_hash"

/-- `height_bytes not in script`, negated. -/
def containsBytes (script part : Bytes) : Bool :=
  (List.range (script.length + 1)).any fun i => slice script i part.length = part

def validateCoinbaseHeight (coinbase : Transaction) (height : ℕ) : Except PyError Unit := do
  let push := heightBytes height
  match coinbase.vin with
  | [] => throw (.indexError "list index out of range")
  | txin :: _ =>
    match txin.scriptSig with
    | [] => throw (.valueError "Empty coinbase script")
    | first :: rest =>
      let script := first :: rest
      if params.isConsensusFeatureActive .SOFTFORK_BIP34_STRICT height then
        require (1 + push.length ≤ script.length) "Coinbase script too short for strict BIP34"
        require (first.toNat = push.length) "Coinbase height push length mismatch"
        require (slice script 1 push.length = push)
          "Coinbase height must be minimally encoded at script start"
      else
        require (first.toNat = push.length || containsBytes script push)
          ("Coinbase height " ++ toString height ++ " not found in script")

/-- The inputs of a transaction: outputs of the block first, then the lookup. -/
def inputTotal (inBlock : List (Outpoint × ℕ)) : List TxIn → Option ℕ
  | [] => some 0
  | txin :: vin =>
    match (inBlock.lookup txin.outpoint).or (outputValueLookup txin.outpoint), inputTotal inBlock vin with
    | some value, some total => some (value + total)
    | _, _ => none

def outputsOf (txid : Bytes) (vout : List TxOut) : List (Outpoint × ℕ) :=
  vout.zipIdx.map fun p => ((txid, p.2), p.1.value.toNat)

/-- `get_total_fees`; `none` where the source returns -1. -/
def getTotalFees (inBlock : List (Outpoint × ℕ)) : List Transaction → Option ℕ
  | [] => some 0
  | tx :: txs =>
    match inputTotal outputValueLookup inBlock tx.vin with
    | none => none
    | some total =>
      if total < totalOut tx.vout then none
      else
        match getTotalFees (outputsOf (tx.txid H) tx.vout ++ inBlock) txs with
        | none => none
        | some fees => some (total - totalOut tx.vout + fees)

def validateSubsidy (coinbase : Transaction) (rest : List Transaction) (height : ℕ) : Bool :=
  match getTotalFees H outputValueLookup [] rest with
  | none => false
  | some totalFees => totalOut coinbase.vout ≤ getBlockSubsidy height params + totalFees

def validateBlock (now : ℕ) (block : Block) (height : ℕ) : Except PyError Unit := do
  validateBlockHeader H params now block.header
  match block.transactions with
  | [] => throw (.valueError "Block must include at least one transaction")
  | coinbase :: rest =>
    require (block.size ≤ params.maxBlockSize) "Block size exceeds limit"
    require (block.weight ≤ params.maxBlockWeight) "Block weight exceeds limit"
    require (block.verifyMerkleRoot H) "Invalid merkle root"
    require coinbase.isCoinbase "First transaction must be coinbase"
    require (rest.all fun tx => !tx.isCoinbase) "Only first transaction may be coinbase"
    if params.bip34Height ≤ height then validateCoinbaseHeight params coinbase height
    block.transactions.forM fun tx => validateTransaction params tx height
    require ((block.transactions.map countSigops).sum ≤ params.maxBlockSigops)
      ("Too many sigops: " ++ toString (block.transactions.map countSigops).sum)
    require (validateSubsidy H params outputValueLookup coinbase rest height) "Invalid subsidy"

end ConsensusRules
end BerzCoin
