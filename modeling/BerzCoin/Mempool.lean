import BerzCoin.MempoolPolicy

/-! The mempool. Python sets of transaction ids are lists without repetition, in the order in which
the ids were added; what is computed from them does not depend on the order. Floating-point
numbers are a linear order `F` with the quotient `rate` of a fee and a size; the rolling fee
floor, which decays with the clock, is given to each call. -/
namespace BerzCoin
open Script (Crypto)

/-- What the mempool reads of the chain: the UTXO table, the ids in the `transactions` table and
the height of the tip. An unspent output has its transaction in the table. -/
structure ChainView where
  params : ConsensusParams
  getUtxo : Outpoint → Option UtxoRow
  transactionExists : Bytes → Bool
  bestHeight : ℤ
  known : ∀ outpoint, getUtxo outpoint ≠ none → transactionExists outpoint.1 = true

def ChainView.nextHeight (chain : ChainView) : ℕ := (chain.bestHeight + 1).toNat

structure MempoolEntry (F : Type) where
  tx : Transaction
  txid : Bytes
  size : ℕ
  vsize : ℕ
  weight : ℕ
  fee : ℤ
  feeRate : F
  timeAdded : F
  heightAdded : ℤ
  ancestors : List Bytes
  descendants : List Bytes

structure MempoolSettings (F : Type) where
  crypto : Crypto
  limits : MempoolLimits
  policy : MempoolPolicy
  rate : ℤ → ℕ → F

structure Mempool (F : Type) where
  transactions : KeyedRows Bytes (MempoolEntry F)
  txByFee : List Bytes
  txByTime : List Bytes
  spentUtxos : Finset Outpoint
  unconfirmedParents : KeyedRows Bytes (List Bytes)
  totalSize : ℤ
  totalVsize : ℤ
  totalWeight : ℤ
  totalFee : ℤ

/-- The texts of `last_reject_reason`. -/
inductive RejectReason
  | already_in_mempool | rbf_policy | coinbase_in_mempool | bad_tx_shape
  | consensus_tx_version_too_low | consensus_rule_invalid | zero_output | empty_output_script
  | output_exceeds_max_money | already_in_chain | validation_failed | missing_utxo
  | coinbase_not_mature | utxo_already_spent_in_mempool | script_verification_failed
  | inputs_less_than_outputs | non_standard | fee_too_low | missing_parents | too_many_ancestors
  | ancestor_package_too_large | mempool_limits | too_many_descendants
  | descendant_package_too_large | package_topology_invalid | package_too_many_transactions
  | package_too_heavy | package_missing_parents | package_fee_too_low
  deriving DecidableEq, Repr

/-- `set.add` and `set.update`. -/
def addNew (ids new : List Bytes) : List Bytes := ids ++ new.filter (· ∉ ids)

def virtualSizeFromWeight (weight : ℕ) : ℕ := max 1 ((weight + 3) / 4)

namespace Mempool
variable {F : Type} [LinearOrder F]

def empty : Mempool F := ⟨.empty, [], [], ∅, .empty, 0, 0, 0, 0⟩

variable (settings : MempoolSettings F) (chain : ChainView) (pool : Mempool F)

def txids : List Bytes := pool.transactions.rows.map Prod.fst

def count : ℕ := pool.transactions.rows.length

def entriesOf (ids : List Bytes) : List (MempoolEntry F) := ids.filterMap pool.transactions.get?

/-! Lookups of inputs. -/

structure PrevOut where
  value : ℕ
  scriptPubkey : Bytes
  height : ℤ
  isCoinbase : Bool

/-- The output that an input spends: of the chain, or else of an entry. -/
def prevOut (outpoint : Outpoint) : Option PrevOut :=
  match chain.getUtxo outpoint with
  | some utxo => some ⟨utxo.value.1, utxo.scriptPubkey, utxo.height, utxo.isCoinbase⟩
  | none =>
    (pool.transactions.get? outpoint.1).bind fun parent =>
      (parent.tx.vout[outpoint.2]?).map fun out =>
        ⟨out.value.toNat, out.scriptPubkey, chain.bestHeight, false⟩

def calculateFee (tx : Transaction) : ℤ :=
  (tx.vin.map fun txin => (((pool.prevOut chain txin.outpoint).map PrevOut.value).getD 0 : ℤ)).sum -
    (tx.vout.map fun txout => (txout.value.toNat : ℤ)).sum

/-- `_check_dependencies`: ids in the `transactions` table are no parents; `none` where a parent
is missing. -/
def checkDependencies (vin : List TxIn) : Option (List Bytes) :=
  vin.foldl (fun parents txin => parents.bind fun ids =>
    if chain.transactionExists txin.prevTxHash then some ids
    else if pool.transactions.contains txin.prevTxHash then some (addNew ids [txin.prevTxHash])
    else none) (some [])

/-! Validation. -/

def isConsensusTxValidForHeight (params : ConsensusParams) (tx : Transaction) (height : ℕ) :
    Except RejectReason Unit :=
  if params.isConsensusFeatureActive .HARDFORK_TX_V2 height && tx.version < 2 then
    .error .consensus_tx_version_too_low
  else
    match ConsensusRules.validateTransaction params tx height with
    | .ok _ => .ok ()
    | .error _ => .error .consensus_rule_invalid

/-- The outputs, with the sum of those before. -/
def validateOutputs (maxMoney : ℕ) : ℕ → List TxOut → Except RejectReason Unit
  | _, [] => .ok ()
  | total, txout :: vout =>
    if txout.value = 0 then .error .zero_output
    else if txout.scriptPubkey = [] then .error .empty_output_script
    else if maxMoney < total + txout.value.toNat then .error .output_exceeds_max_money
    else validateOutputs maxMoney (total + txout.value.toNat) vout

/-- The inputs in turn; the result is the sum of the values they spend. -/
def validateInputs (tx : Transaction) (ignored : Outpoint → Bool) :
    ℕ → List Outpoint → List TxIn → Except RejectReason ℕ
  | _, _, [] => .ok 0
  | idx, seen, txin :: vin =>
    if txin.outpoint ∈ seen then .error .validation_failed
    else
      match pool.prevOut chain txin.outpoint with
      | none => .error .missing_utxo
      | some out =>
        if out.isCoinbase && chain.bestHeight + 1 - out.height < chain.params.coinbaseMaturity then
          .error .coinbase_not_mature
        else if !ignored txin.outpoint && txin.outpoint ∈ pool.spentUtxos then
          .error .utxo_already_spent_in_mempool
        else if !Script.verifyInputScript settings.crypto tx idx txin.scriptSig out.scriptPubkey
            out.value Script.ScriptFlags.STANDARD_VERIFY_FLAGS then
          .error .script_verification_failed
        else
          match validateInputs tx ignored (idx + 1) (txin.outpoint :: seen) vin with
          | .error reason => .error reason
          | .ok total => .ok (out.value + total)

def validateTransaction (tx : Transaction) (ignored : Outpoint → Bool) :
    Except RejectReason Unit := do
  if tx.isCoinbase then throw .coinbase_in_mempool
  if tx.vin = [] ∨ tx.vout = [] then throw .bad_tx_shape
  isConsensusTxValidForHeight chain.params tx chain.nextHeight
  validateOutputs chain.params.maxMoney 0 tx.vout
  if chain.transactionExists (tx.txid settings.crypto.toHashlib) then throw .already_in_chain
  let totalIn ← pool.validateInputs settings chain tx ignored 0 [] tx.vin
  if totalIn < BlockValidator.totalOut tx.vout then throw .inputs_less_than_outputs

/-! Ancestors and descendants. -/

def descendantsLoop : ℕ → List Bytes → List Bytes → List Bytes
  | 0, _, found => found
  | _, [], found => found
  | fuel + 1, current :: queue, found =>
    match pool.transactions.get? current with
    | none => descendantsLoop fuel queue found
    | some entry =>
      let new := entry.descendants.filter (· ∉ found)
      descendantsLoop fuel (queue ++ new) (found ++ new)

/-- An id enters the queue of `_get_descendants` once. -/
def getDescendants (txid : Bytes) : List Bytes :=
  pool.descendantsLoop (1 + pool.transactions.sum fun entry => entry.descendants.length) [txid] []

def ancestorsLoop : ℕ → List Bytes → List Bytes → List Bytes
  | 0, _, found => found
  | _, [], found => found
  | fuel + 1, current :: queue, found =>
    if current ∈ found then ancestorsLoop fuel queue found
    else
      match pool.transactions.get? current with
      | none => ancestorsLoop fuel queue (found ++ [current])
      | some entry =>
        ancestorsLoop fuel (queue ++ entry.ancestors.filter (· ∉ found ++ [current]))
          (found ++ [current])

/-- The ancestors of an id enter the queue of `_collect_ancestors` once. -/
def collectAncestors (parents : List Bytes) : List Bytes :=
  pool.ancestorsLoop (1 + parents.length + pool.transactions.sum fun entry => entry.ancestors.length)
    parents []

/-! Removal. -/

/-- The body of the loop of `_remove_transaction_nolock`. -/
def removeEntry (txid : Bytes) : Mempool F :=
  match pool.transactions.get? txid with
  | none => pool
  | some entry =>
    { transactions := ((pool.transactions.delete txid).updateWhere (· ∈ entry.ancestors) fun e =>
        { e with descendants := e.descendants.erase txid }).updateWhere (· ∈ entry.descendants)
        fun e => { e with ancestors := e.ancestors.erase txid }
      txByFee := pool.txByFee.erase txid
      txByTime := pool.txByTime.erase txid
      spentUtxos := pool.spentUtxos \ (entry.tx.vin.map TxIn.outpoint).toFinset
      unconfirmedParents := pool.unconfirmedParents.delete txid
      totalSize := pool.totalSize - entry.size
      totalVsize := pool.totalVsize - entry.vsize
      totalWeight := pool.totalWeight - entry.weight
      totalFee := pool.totalFee - entry.fee }

def removeEntries (pool : Mempool F) (ids : List Bytes) : Mempool F := ids.foldl removeEntry pool

/-- `_remove_transaction_nolock`. -/
def removeTransaction (txid : Bytes) (includeDescendants : Bool) : Mempool F :=
  if pool.transactions.contains txid then
    pool.removeEntries (addNew [txid] (if includeDescendants then pool.getDescendants txid else []))
  else pool

/-- The removals of a list of ids, each with its descendants as they are then. -/
def removeEach (pool : Mempool F) (ids : List Bytes) : Mempool F :=
  ids.foldl (fun pool txid => pool.removeTransaction txid true) pool

/-! Replacement. -/

def outpointsOf (tx : Transaction) : List Outpoint := tx.vin.map TxIn.outpoint

def findConflictingTxids (tx : Transaction) : List Bytes :=
  (pool.transactions.rows.filter fun r =>
    (outpointsOf tx).any fun outpoint => outpoint ∈ outpointsOf r.2.tx).map Prod.fst

def buildIgnoredSpentSet (conflicts : List Bytes) : List Outpoint :=
  (pool.entriesOf conflicts).flatMap fun entry => outpointsOf entry.tx

def signalsOptInRbf (tx : Transaction) : Bool := tx.vin.any fun txin => txin.sequence < 0xFFFFFFFE

/-- `_is_txid_replaceable` with the ids seen so far, which the recursive calls share. Each of them
adds an entry to the ids, so the number of entries bounds the depth. -/
def isTxidReplaceable : ℕ → List Bytes → Bytes → Bool × List Bytes
  | 0, seen, _ => (false, seen)
  | fuel + 1, seen, txid =>
    match pool.transactions.get? txid with
    | none => (false, seen)
    | some entry =>
      if signalsOptInRbf entry.tx then (true, seen)
      else if txid ∈ seen then (false, seen)
      else
        ((pool.unconfirmedParents.get? txid).getD []).foldl
          (fun r parent => if r.1 then r else isTxidReplaceable fuel r.2 parent)
          (false, seen ++ [txid])

/-- The conflicts and their descendants. -/
def replacementSet (conflicts : List Bytes) : List Bytes :=
  conflicts.foldl (fun ids txid => addNew ids (pool.getDescendants txid)) conflicts

def sumVsize (entries : List (MempoolEntry F)) : ℕ := (entries.map MempoolEntry.vsize).sum

def canReplace (conflicts : List Bytes) (tx : Transaction) (newFee : ℤ) (newVsize : ℕ)
    (newFeeRate : F) : Bool :=
  let replaced := pool.replacementSet conflicts
  let entries := pool.entriesOf replaced
  let totalVsize := (entries.map fun entry => max 1 entry.vsize).sum
  let oldParents := entries.flatMap fun entry => (pool.unconfirmedParents.get? entry.txid).getD []
  let oldFee := (entries.map MempoolEntry.fee).sum
  if 100 < replaced.length then false
  else if entries.isEmpty then true
  else if max 1 (settings.limits.maxPackageWeight / 4) < totalVsize then false
  else if conflicts.any fun txid => !(pool.isTxidReplaceable (pool.count + 1) [] txid).1 then false
  else if tx.vin.any fun txin => pool.transactions.contains txin.prevTxHash &&
      txin.prevTxHash ∉ replaced && txin.prevTxHash ∉ oldParents then false
  else if newFee ≤ oldFee + settings.policy.getMinFeeForVsize (max 1 newVsize) then false
  else if newFeeRate ≤ settings.rate oldFee (max 1 totalVsize) then false
  else !entries.any fun entry => entry.tx.serialize true = tx.serialize true

/-! Eviction. -/

/-- The fee rate and the size of an entry with its descendants. -/
def descendantPackageStats (txid : Bytes) : F × ℕ :=
  let members := pool.entriesOf (addNew [txid] (pool.getDescendants txid))
  let vsize := sumVsize members
  if vsize = 0 then (settings.rate 0 1, 0)
  else (settings.rate (members.map MempoolEntry.fee).sum vsize, vsize)

/-- The order of the hexadecimal texts of two ids. -/
def txidLe : Bytes → Bytes → Bool
  | [], _ => true
  | _ :: _, [] => false
  | a :: as, b :: bs => a < b || (a = b && txidLe as bs)

/-- The order of `_eviction_rank`: the package rate, the own rate, the larger package, the id. -/
def evictionRankLe (a b : Bytes) : Bool :=
  match pool.transactions.get? a, pool.transactions.get? b with
  | some entryA, some entryB =>
    let (rateA, vsizeA) := pool.descendantPackageStats settings a
    let (rateB, vsizeB) := pool.descendantPackageStats settings b
    rateA < rateB || (rateA = rateB && (entryA.feeRate < entryB.feeRate ||
      (entryA.feeRate = entryB.feeRate && (vsizeB < vsizeA || (vsizeB = vsizeA && txidLe a b)))))
  | none, some _ => false
  | some _, none => true
  | none, none => txidLe a b

def canAccept (size weight : ℕ) : Bool :=
  settings.limits.canAccept size weight pool.count pool.totalSize pool.totalWeight

def evictLoop (size weight : ℕ) (feeRate : F) : List Bytes → Mempool F → Mempool F
  | [], pool => pool
  | txid :: rest, pool =>
    if pool.canAccept settings size weight then pool
    else if pool.transactions.contains txid then
      if feeRate ≤ (pool.descendantPackageStats settings txid).1 then pool
      else evictLoop size weight feeRate rest (pool.removeTransaction txid true)
    else evictLoop size weight feeRate rest pool

def evictForSpace (size weight : ℕ) (feeRate : F) : Mempool F :=
  evictLoop settings size weight feeRate
    (pool.txids.insertionSort fun a b => pool.evictionRankLe settings a b = true) pool

/-! Acceptance. -/

/-- What `add_transaction` has computed when the checks before the eviction have passed. -/
structure Candidate (F : Type) where
  tx : Transaction
  txid : Bytes
  size : ℕ
  weight : ℕ
  vsize : ℕ
  fee : ℤ
  feeRate : F
  conflicts : List Bytes
  parents : List Bytes
  ancestors : List Bytes

/-- The arguments of a call that do not depend on the pool. `packageMinFeeRate` is set by
`add_package`. -/
structure CallArgs (F : Type) where
  floor : F
  packageMinFeeRate : Option F
  now : F

/-- The checks before the eviction. -/
def screen (args : CallArgs F) (tx : Transaction) : Except RejectReason (Candidate F) := do
  let txid := tx.txid settings.crypto.toHashlib
  if pool.transactions.contains txid then throw .already_in_mempool
  let fee := pool.calculateFee chain tx
  let vsize := virtualSizeFromWeight tx.weight
  let feeRate := settings.rate fee vsize
  let conflicts := pool.findConflictingTxids tx
  if conflicts ≠ [] ∧ pool.canReplace settings conflicts tx fee vsize feeRate = false then
    throw .rbf_policy
  pool.validateTransaction settings chain tx fun outpoint =>
    outpoint ∈ pool.buildIgnoredSpentSet conflicts
  if settings.policy.isStandard tx = false then throw .non_standard
  if feeRate < args.floor ∧ ¬ args.packageMinFeeRate.any (args.floor ≤ ·) then throw .fee_too_low
  let parents ← (pool.checkDependencies chain tx.vin).elim (.error .missing_parents) .ok
  let ancestors := pool.collectAncestors parents
  if settings.limits.maxAncestors < ancestors.length then throw .too_many_ancestors
  if settings.limits.maxAncestorSizeVbytes < vsize + sumVsize (pool.entriesOf ancestors) then
    throw .ancestor_package_too_large
  return ⟨tx, txid, tx.size, tx.weight, vsize, fee, feeRate, conflicts, parents, ancestors⟩

def feeRateOf (txid : Bytes) : WithBot F := (pool.transactions.get? txid).map MempoolEntry.feeRate

def timeOf (txid : Bytes) : WithBot F := (pool.transactions.get? txid).map MempoolEntry.timeAdded

def updateIndexes (txid : Bytes) : Mempool F :=
  { pool with
    txByFee := (pool.txByFee ++ [txid]).insertionSort fun a b => pool.feeRateOf b ≤ pool.feeRateOf a
    txByTime := (pool.txByTime ++ [txid]).insertionSort fun a b => pool.timeOf a ≤ pool.timeOf b }

/-- The new entry with its totals, indexes, spent outpoints and ancestors. -/
def insertEntry (now : F) (c : Candidate F) : Mempool F :=
  { { pool with
      transactions := pool.transactions.put c.txid
        ⟨c.tx, c.txid, c.size, c.vsize, c.weight, c.fee, c.feeRate, now, chain.bestHeight,
          c.ancestors, []⟩
      totalSize := pool.totalSize + c.size
      totalVsize := pool.totalVsize + c.vsize
      totalWeight := pool.totalWeight + c.weight
      totalFee := pool.totalFee + c.fee : Mempool F }.updateIndexes c.txid with
    spentUtxos := pool.spentUtxos ∪ (outpointsOf c.tx).toFinset
    unconfirmedParents :=
      if c.ancestors = [] then pool.unconfirmedParents
      else pool.unconfirmedParents.put c.txid c.parents }

def addDescendant (ancestor txid : Bytes) : Mempool F :=
  { pool with
    transactions := pool.transactions.update ancestor fun e =>
      { e with descendants := addNew e.descendants [txid] } }

/-- The loop over the ancestors of a new entry; the entry is taken out again where an ancestor
gets too many or too large descendants. -/
def linkAncestors (txid : Bytes) : List Bytes → Mempool F → Mempool F × Option RejectReason
  | [], pool => (pool, none)
  | ancestor :: rest, pool =>
    let linked := pool.addDescendant ancestor txid
    match linked.transactions.get? ancestor with
    | none => linkAncestors txid rest pool
    | some entry =>
      if settings.limits.maxDescendants < entry.descendants.length then
        (linked.removeTransaction txid false, some .too_many_descendants)
      else if settings.limits.maxDescendantSizeVbytes <
          entry.vsize + sumVsize (linked.entriesOf entry.descendants) then
        (linked.removeTransaction txid false, some .descendant_package_too_large)
      else linkAncestors txid rest linked

/-- The pool after the eviction. -/
def makeRoom (c : Candidate F) : Mempool F :=
  if pool.canAccept settings c.size c.weight then pool
  else pool.evictForSpace settings c.size c.weight c.feeRate

/-- The pool after the conflicts are removed. -/
def removeConflicts (c : Candidate F) : Mempool F :=
  pool.removeEach (pool.replacementSet c.conflicts)

def admitCandidate (now : F) (c : Candidate F) : Mempool F × Option RejectReason :=
  linkAncestors settings c.txid c.ancestors (pool.insertEntry chain now c)

/-- The reason is `none` where the source returns `True`. -/
def addTransaction (args : CallArgs F) (tx : Transaction) : Mempool F × Option RejectReason :=
  match pool.screen settings chain args tx with
  | .error reason => (pool, some reason)
  | .ok c =>
    let roomy := pool.makeRoom settings c
    if roomy.canAccept settings c.size c.weight then
      (roomy.removeConflicts c).admitCandidate settings chain args.now c
    else (roomy, some .mempool_limits)

/-! Blocks. -/

/-- Whether an entry stays after a block was connected. -/
def revalidates (entry : MempoolEntry F) : Bool :=
  let tx := entry.tx
  (pool.validateTransaction settings chain tx fun outpoint => outpoint ∈ outpointsOf tx).isOk &&
    (pool.checkDependencies chain tx.vin).isSome && settings.policy.isStandard tx &&
    (settings.policy.getMinFeeForVsize (virtualSizeFromWeight tx.weight) : ℤ) ≤
      pool.calculateFee chain tx

def revalidateLoop : List Bytes → Mempool F → Mempool F
  | [], pool => pool
  | txid :: rest, pool =>
    match pool.transactions.get? txid with
    | none => revalidateLoop rest pool
    | some entry =>
      if pool.revalidates settings chain entry then revalidateLoop rest pool
      else revalidateLoop rest (pool.removeTransaction txid true)

/-- The ids of the transactions of a block that are no coinbase. -/
def confirmedTxids (block : Block) : List Bytes :=
  ((block.transactions.filter fun tx => !tx.isCoinbase).map
    (·.txid settings.crypto.toHashlib)).dedup

def handleConnectedBlock (block : Block) : Mempool F :=
  let pool := pool.removeEach (confirmedTxids settings block)
  revalidateLoop settings chain pool.txids pool

/-! Packages. -/

/-- One pass of `_sort_package_txs` over the transactions that are not placed yet. -/
def sortPass (H : Hashlib) (ids : List Bytes) :
    List Transaction → List Transaction → List Transaction × List Transaction
  | [], ordered => (ordered, [])
  | tx :: unresolved, ordered =>
    if tx.vin.all fun txin => txin.prevTxHash ∉ ids || txin.prevTxHash ∈ ordered.map (·.txid H) then
      sortPass H ids unresolved (ordered ++ [tx])
    else
      let (ordered, left) := sortPass H ids unresolved ordered
      (ordered, tx :: left)

def sortLoop (H : Hashlib) (ids : List Bytes) :
    ℕ → List Transaction → List Transaction → Option (List Transaction)
  | _, [], ordered => some ordered
  | 0, _ :: _, _ => none
  | fuel + 1, tx :: rest, ordered =>
    let (ordered', left) := sortPass H ids (tx :: rest) ordered
    if left.length < (tx :: rest).length then sortLoop H ids fuel left ordered' else none

/-- The dictionary of the package: the last of equal transactions counts. -/
def packageById (H : Hashlib) (txs : List Transaction) : KeyedRows Bytes Transaction :=
  txs.foldl (fun rows tx => rows.put (tx.txid H) tx) .empty

def sortPackageTxs (H : Hashlib) (txs : List Transaction) : Option (List Transaction) :=
  let byId := packageById H txs
  let unresolved := (byId.rows.insertionSort fun a b => txidLe a.1 b.1 = true).map Prod.snd
  sortLoop H (byId.rows.map Prod.fst) unresolved.length unresolved []

/-- The inputs of a transaction of a package: outputs of the package first. -/
def packageInput (staged : List (Outpoint × ℕ)) : List TxIn → Option ℤ
  | [] => some 0
  | txin :: vin =>
    match (staged.lookup txin.outpoint).or
        ((pool.prevOut chain txin.outpoint).map PrevOut.value), packageInput staged vin with
    | some value, some total => some (value + total)
    | _, _ => none

def estimatePackageFee (H : Hashlib) (staged : List (Outpoint × ℕ)) : List Transaction → Option ℤ
  | [] => some 0
  | tx :: txs =>
    match pool.packageInput chain staged tx.vin with
    | none => none
    | some total =>
      match estimatePackageFee H (ConsensusRules.outputsOf (tx.txid H) tx.vout ++ staged) txs with
      | none => none
      | some fees => some (total - BlockValidator.totalOut tx.vout + fees)

/-- The transactions of a package one after the other; on a rejection those that were added are
removed again. The clock and the fee floor are read anew for each. -/
def addPackageLoop (packageFeeRate : F) :
    List (CallArgs F) → List Transaction → List Bytes → Mempool F → Mempool F × Option RejectReason
  | args :: rest, tx :: txs, added, pool =>
    match pool.addTransaction settings chain { args with packageMinFeeRate := some packageFeeRate } tx with
    | (pool, some reason) => (pool.removeEach added.reverse, some reason)
    | (pool, none) =>
      addPackageLoop packageFeeRate rest txs (added ++ [tx.txid settings.crypto.toHashlib]) pool
  | _, _, _, pool => (pool, none)

/-- The checks of a package as a whole: its fee rate and its transactions in the order in which
they are added. -/
def planPackage (floor : F) (txs : List Transaction) : Except RejectReason (F × List Transaction) :=
  match sortPackageTxs settings.crypto.toHashlib txs with
  | none => .error .package_topology_invalid
  | some ordered =>
    let weight := (ordered.map Transaction.weight).sum
    let vsize := (ordered.map fun tx => virtualSizeFromWeight tx.weight).sum
    if settings.limits.maxPackageCount < ordered.length then .error .package_too_many_transactions
    else if settings.limits.maxPackageWeight < weight then .error .package_too_heavy
    else
      match pool.estimatePackageFee chain settings.crypto.toHashlib [] ordered with
      | none => .error .package_missing_parents
      | some fee =>
        let feeRate := if 0 < vsize then settings.rate fee vsize else settings.rate 0 1
        if feeRate < floor then .error .package_fee_too_low else .ok (feeRate, ordered)

/-- `argsOf` gives the arguments of the call for each transaction; `floor` is the one that the
package is compared with. -/
def addPackage (floor : F) (argsOf : ℕ → CallArgs F) (txs : List Transaction) :
    Mempool F × Option RejectReason :=
  match pool.planPackage settings chain floor txs with
  | .error reason => (pool, some reason)
  | .ok (feeRate, ordered) =>
    addPackageLoop settings chain feeRate ((List.range ordered.length).map argsOf) ordered [] pool

end Mempool

/-- The calls that change the mempool. -/
inductive MempoolCall (F : Type)
  | addTransaction (args : Mempool.CallArgs F) (tx : Transaction)
  | addPackage (floor : F) (argsOf : ℕ → Mempool.CallArgs F) (txs : List Transaction)
  | removeTransaction (txid : Bytes) (includeDescendants : Bool)
  | handleConnectedBlock (block : Block)

def MempoolCall.apply {F : Type} [LinearOrder F] (settings : MempoolSettings F) (chain : ChainView)
    (pool : Mempool F) : MempoolCall F → Mempool F
  | .addTransaction args tx => (pool.addTransaction settings chain args tx).1
  | .addPackage floor argsOf txs => (pool.addPackage settings chain floor argsOf txs).1
  | .removeTransaction txid includeDescendants => pool.removeTransaction txid includeDescendants
  | .handleConnectedBlock block => pool.handleConnectedBlock settings chain block

end BerzCoin
