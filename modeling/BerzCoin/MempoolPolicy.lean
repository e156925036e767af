import BerzCoin.ConsensusRules

/-! `MempoolPolicy` and `MempoolLimits`: which transactions are standard, and how many of them the
mempool takes. -/
namespace BerzCoin

/-- The limits with their defaults; `max_orphans`, `min_fee_rate` and `expiry_hours` are not
read by the mempool. -/
structure MempoolLimits where
  maxSize : ℕ := 300000000
  maxWeight : ℕ := 1500000000
  maxTransactions : ℕ := 50000
  maxAncestors : ℕ := 25
  maxDescendants : ℕ := 25
  maxAncestorSizeVbytes : ℕ := 101000
  maxDescendantSizeVbytes : ℕ := 101000
  maxPackageCount : ℕ := 25
  maxPackageWeight : ℕ := 404000

/-- The totals of the pool are signed, as the source subtracts from them. -/
def MempoolLimits.canAccept (limits : MempoolLimits) (size weight count : ℕ)
    (currentSize currentWeight : ℤ) : Bool :=
  currentSize + size ≤ limits.maxSize && currentWeight + weight ≤ limits.maxWeight &&
    count + 1 ≤ limits.maxTransactions

structure MempoolPolicy where
  minRelayFee : ℕ := 1
  maxTxSize : ℕ := 100000
  maxTxWeight : ℕ := 400000
  dustThreshold : ℕ := 546

namespace MempoolPolicy

def MAX_STANDARD_WITNESS_ITEMS : ℕ := 100
def MAX_STANDARD_WITNESS_ITEM_SIZE : ℕ := 80
def MAX_STANDARD_TAPSCRIPT_SIZE : ℕ := 10000
def MAX_STANDARD_TAPROOT_CONTROL_BLOCK : ℕ := 33 + 32 * 128
def MAX_STANDARD_SCRIPTSIG_SIZE : ℕ := 1650
def MAX_OP_RETURN_OUTPUTS : ℕ := 1

/-- Pay to public key, public key hash, script hash, the witness programs of version 0 and 1, and
short data carriers. -/
def isStandardOutput (scriptPubkey : Bytes) : Bool :=
  match scriptPubkey with
  | [] => false
  | first :: _ =>
    (scriptPubkey.length = 35 && first = 0x21 && scriptPubkey.getLast? = some 0xac) ||
    (scriptPubkey.length = 25 && scriptPubkey.take 3 = [0x76, 0xa9, 0x14] &&
      scriptPubkey.drop 23 = [0x88, 0xac]) ||
    (scriptPubkey.length = 23 && scriptPubkey.take 2 = [0xa9, 0x14] &&
      scriptPubkey.drop 22 = [0x87]) ||
    (scriptPubkey.length = 22 && scriptPubkey.take 2 = [0x00, 0x14]) ||
    (scriptPubkey.length = 34 && scriptPubkey.take 2 = [0x00, 0x20]) ||
    (scriptPubkey.length = 34 && scriptPubkey.take 2 = [0x51, 0x20]) ||
    (first = 0x6a && scriptPubkey.length ≤ 83)

/-- A script of pushes only, each of which is allowed with the data it pushes. -/
def scanPushes (allowed : UInt8 → Bytes → Bool) : ℕ → Bytes → Bool
  | _, [] => true
  | 0, _ :: _ => false
  | fuel + 1, opcode :: rest =>
    let push (width length : ℕ) : Bool :=
      width ≤ rest.length && length ≤ (rest.drop width).length &&
        allowed opcode (slice rest width length) &&
        scanPushes allowed fuel ((rest.drop width).drop length)
    if opcode ≤ 0x4b then push 0 opcode.toNat
    else if opcode = 0x4c then push 1 (leNat (rest.take 1))
    else if opcode = 0x4d then push 2 (leNat (rest.take 2))
    else if opcode = 0x4e then push 4 (leNat (rest.take 4))
    else if opcode = 0x4f ∨ (0x51 ≤ opcode ∧ opcode ≤ 0x60) then scanPushes allowed fuel rest
    else false

def isPushOnly (script : Bytes) : Bool := scanPushes (fun _ _ => true) script.length script

/-- The push has no shorter form. -/
def isMinimal (opcode : UInt8) (data : Bytes) : Bool :=
  if opcode = 0x01 then data.all fun value => 16 < value && value ≠ 0x81
  else if opcode = 0x4c then 0x4c ≤ data.length
  else if opcode = 0x4d then 0x100 ≤ data.length
  else if opcode = 0x4e then 0x10000 ≤ data.length
  else true

def isMinimalPush (script : Bytes) : Bool := scanPushes isMinimal script.length script

/-- One item is taken for a key path signature, more for a script path. -/
def isStandardWitness (items : List Bytes) (scriptSig : Bytes) : Bool :=
  match items.reverse with
  | [] => true
  | [item] => scriptSig = [] && (item.length = 64 || item.length = 65)
  | controlBlock :: scriptItem :: stackItems =>
    scriptSig = [] && items.length ≤ MAX_STANDARD_WITNESS_ITEMS &&
      stackItems.all (fun item => item.length ≤ MAX_STANDARD_WITNESS_ITEM_SIZE) &&
      scriptItem ≠ [] && scriptItem.length ≤ MAX_STANDARD_TAPSCRIPT_SIZE &&
      33 ≤ controlBlock.length && controlBlock.length ≤ MAX_STANDARD_TAPROOT_CONTROL_BLOCK &&
      (controlBlock.length - 33) % 32 = 0 && (stackItems.head?.bind List.head?) ≠ some 0x50

def isStandardInput (txin : TxIn) : Bool :=
  txin.scriptSig.length ≤ MAX_STANDARD_SCRIPTSIG_SIZE &&
    isStandardWitness txin.witness txin.scriptSig &&
    (txin.scriptSig = [] || (isPushOnly txin.scriptSig && isMinimalPush txin.scriptSig))

variable (policy : MempoolPolicy)

def isDust (value : ℕ) : Bool := value < policy.dustThreshold

def isStandardTxOut (txout : TxOut) : Bool :=
  isStandardOutput txout.scriptPubkey &&
    if txout.scriptPubkey.head? = some 0x6a then txout.value = 0 else !policy.isDust txout.value.toNat

def isStandard (tx : Transaction) : Bool :=
  1 ≤ tx.version && tx.version ≤ 2 && tx.size ≤ policy.maxTxSize && tx.weight ≤ policy.maxTxWeight &&
    tx.vout.all policy.isStandardTxOut &&
    tx.vout.countP (fun txout => txout.scriptPubkey.head? = some 0x6a) ≤ MAX_OP_RETURN_OUTPUTS &&
    (tx.isCoinbase || tx.vin.all isStandardInput)

def getMinFeeForVsize (vsize : ℕ) : ℕ := vsize * policy.minRelayFee

end MempoolPolicy
end BerzCoin
