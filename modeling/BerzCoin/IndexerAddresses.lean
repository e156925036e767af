import BerzCoin.KeyedRows
import BerzCoin.OperationRuns

/-! `AddressIndex`: the rows of the addresses, and the balances that are kept beside them. Integers
are unbounded here, and the cache of `get_address_info` is left out. `clock` is `time.time()`. -/
namespace BerzCoin

/-- The primary key of `address_txs`. -/
structure AddressTxKey where
  address : String
  txid : String
  isInput : Bool
  ioIndex : ℤ
  deriving DecidableEq, Repr

structure AddressTxRow where
  height : ℤ
  blockTime : ℤ
  blockTxIndex : ℤ
  isOutput : Bool
  value : ℤ
  deriving DecidableEq, Repr

structure AddressBalanceRow where
  balance : ℤ
  unconfirmedBalance : ℤ
  updatedAt : ℕ
  deriving DecidableEq, Repr

structure AddressIndex where
  addressTxs : KeyedRows AddressTxKey AddressTxRow := .empty
  addressBalance : KeyedRows String AddressBalanceRow := .empty

namespace AddressIndex
variable (index : AddressIndex)

def updateBalance (clock : ℚ) (address : String) (delta unconfirmedDelta : ℤ) : AddressIndex :=
  { index with addressBalance := index.addressBalance.put address <|
      match index.addressBalance.get? address with
      | none => ⟨delta, unconfirmedDelta, ⌊clock⌋₊⟩
      | some row => ⟨row.balance + delta, row.unconfirmedBalance + unconfirmedDelta, ⌊clock⌋₊⟩ }

def indexAddress (clock : ℚ) (key : AddressTxKey) (row : AddressTxRow) : AddressIndex :=
  if key.address = "" then index
  else
    let index := { index with addressTxs := index.addressTxs.insertOrReplace key row }
    if row.isOutput then index.updateBalance clock key.address row.value 0
    else if key.isInput then index.updateBalance clock key.address (-row.value) 0
    else index

/-- The last statement of `rebuild_from_tx_index`. -/
def rebuiltBalance (clock : ℚ) : KeyedRows String AddressBalanceRow where
  rows := (index.addressTxs.rows.map (·.1.address)).dedup.map fun address =>
    (address, ⟨(index.addressTxs.rows.map fun r =>
      if r.1.address = address then if r.2.isOutput then r.2.value else -r.2.value else 0).sum, 0,
      ⌊clock⌋₊⟩)
  nodupKeys := by
    rw [List.map_map]
    exact (List.map_id'' (fun _ => rfl) _).symm ▸ List.nodup_dedup _

/-- The balance in a table, zero without a row. -/
def balanceIn (table : KeyedRows String AddressBalanceRow) (address : String) : ℤ :=
  ((table.get? address).map AddressBalanceRow.balance).getD 0

/-- The values of the output rows of an address, less the values of its input rows. -/
def received (address : String) : ℤ :=
  ((index.addressTxs.rows.filter fun r => r.1.address = address && r.2.isOutput).map (·.2.value)).sum -
    ((index.addressTxs.rows.filter fun r => r.1.address = address && r.1.isInput).map (·.2.value)).sum

/-- The balances match the rows, and so do those that a rebuild computes. -/
def Balanced : Prop :=
  ∀ address, balanceIn index.addressBalance address = index.received address ∧
    ∀ clock, balanceIn (index.rebuiltBalance clock) address = balanceIn index.addressBalance address

section sums
variable {index} {key : AddressTxKey} {row : AddressTxRow} {address : String} {clock : ℚ}

/-- What a row counts as output, less what it counts as input. -/
def counted (key : AddressTxKey) (row : AddressTxRow) : ℤ :=
  (if row.isOutput then row.value else 0) - if key.isInput then row.value else 0

/-- What a row counts in a rebuild: all that is no output is subtracted. -/
def recounted (row : AddressTxRow) : ℤ := if row.isOutput then row.value else -row.value

/-- What a call adds to the balance. -/
def delta (key : AddressTxKey) (row : AddressTxRow) : ℤ :=
  if row.isOutput then row.value else if key.isInput then -row.value else 0

/-- The rows of an address, each with its own weight. -/
def weigh (index : AddressIndex) (address : String) (weight : AddressTxKey → AddressTxRow → ℤ) : ℤ :=
  (index.addressTxs.rows.map fun r => if r.1.address = address then weight r.1 r.2 else 0).sum

/-- The weight of the row that a call replaces. -/
def replaced (index : AddressIndex) (key : AddressTxKey) (weight : AddressTxRow → ℤ) : ℤ :=
  ((index.addressTxs.get? key).map weight).getD 0

lemma received_eq : index.received address = index.weigh address counted := by
  simp only [received, weigh]
  induction index.addressTxs.rows with
  | nil => rfl
  | cons r rows ih =>
    rw [List.map_cons, List.sum_cons, ← ih]
    by_cases haddress : r.1.address = address
    · cases houtput : r.2.isOutput <;> cases hinput : r.1.isInput <;>
        simp [haddress, houtput, hinput, counted] <;> ring
    · simp [haddress]

lemma balanceIn_rebuiltBalance :
    balanceIn (index.rebuiltBalance clock) address = index.weigh address fun _ => recounted := by
  have hfind (addresses : List String) (row : String → AddressBalanceRow) :
      ((addresses.map fun a => (a, row a)).find? (·.1 = address)).map Prod.snd =
        if address ∈ addresses then some (row address) else none := by
    induction addresses with
    | nil => rfl
    | cons a addresses ih =>
      by_cases ha : a = address
      · simp [ha]
      · have ha' : address ≠ a := fun h => ha h.symm
        simpa [ha, ha'] using ih
  rw [balanceIn, KeyedRows.get?, rebuiltBalance, hfind]
  by_cases hmem : address ∈ (index.addressTxs.rows.map (·.1.address)).dedup
  · rw [if_pos hmem]
    rfl
  · rw [if_neg hmem]
    refine (List.sum_eq_zero ?_).symm
    intro x hx
    obtain ⟨r, hr, rfl⟩ := List.mem_map.1 hx
    refine if_neg ?_
    rintro rfl
    exact hmem (List.mem_dedup.2 (List.mem_map_of_mem hr))

lemma addressTxs_indexAddress (hkey : key.address ≠ "") :
    (index.indexAddress clock key row).addressTxs = index.addressTxs.insertOrReplace key row := by
  simp only [indexAddress, hkey, if_false, updateBalance]
  split_ifs <;> rfl

/-- After a call an address has the weight of the new row, without that of the row replaced. -/
lemma weigh_indexAddress (hkey : key.address ≠ "") (weight : AddressTxKey → AddressTxRow → ℤ) :
    (index.indexAddress clock key row).weigh address weight = index.weigh address weight +
      if address = key.address then weight key row - index.replaced key (weight key) else 0 := by
  rw [weigh, addressTxs_indexAddress hkey, KeyedRows.sum_map_insertOrReplace, weigh, replaced]
  by_cases haddress : address = key.address
  · simp only [haddress, if_true]
    ring
  · have haddress' : key.address ≠ address := fun h => haddress h.symm
    simp only [haddress, haddress', if_false]
    cases index.addressTxs.get? key <;> simp

lemma balanceIn_updateBalance (delta unconfirmedDelta : ℤ) (other : String) :
    balanceIn (index.updateBalance clock address delta unconfirmedDelta).addressBalance other =
      balanceIn index.addressBalance other + if other = address then delta else 0 := by
  simp only [updateBalance, balanceIn, KeyedRows.get?_put]
  split_ifs with hother
  · subst hother
    cases index.addressBalance.get? other <;> simp
  · simp

lemma balanceIn_indexAddress (hkey : key.address ≠ "") :
    balanceIn (index.indexAddress clock key row).addressBalance address =
      balanceIn index.addressBalance address + if address = key.address then delta key row else 0 := by
  simp only [indexAddress, hkey, if_false, delta]
  split_ifs with houtput hinput <;> simp_all [balanceIn_updateBalance]

lemma balanced_iff : index.Balanced ↔ ∀ address,
    balanceIn index.addressBalance address = index.weigh address counted ∧
      balanceIn index.addressBalance address = index.weigh address (fun _ => recounted) := by
  refine forall_congr' fun address => ?_
  rw [received_eq]
  simp only [balanceIn_rebuiltBalance, forall_const, eq_comm]

lemma balanced_indexAddress_iff (h : index.Balanced) (hkey : key.address ≠ "") :
    (index.indexAddress clock key row).Balanced ↔
      delta key row = counted key row - index.replaced key (counted key) ∧
        delta key row = recounted row - index.replaced key recounted := by
  rw [balanced_iff] at h ⊢
  simp only [weigh_indexAddress hkey, balanceIn_indexAddress hkey]
  constructor
  · intro hafter
    obtain ⟨hcounted, hrecounted⟩ := hafter key.address
    obtain ⟨hcounted', hrecounted'⟩ := h key.address
    simp only [if_true] at hcounted hrecounted
    constructor <;> omega
  · rintro ⟨hcounted, hrecounted⟩ address
    obtain ⟨hcounted', hrecounted'⟩ := h address
    split_ifs
    · constructor <;> omega
    · constructor <;> omega

end sums

/-- One call of `index_address`. -/
structure Call where
  clock : ℚ
  key : AddressTxKey
  row : AddressTxRow

def step (call : Call) (index : AddressIndex) : AddressIndex :=
  index.indexAddress call.clock call.key call.row

/-- The row is an output or an input and not both, or it has no value. -/
def Directed (key : AddressTxKey) (row : AddressTxRow) : Prop :=
  row.value = 0 ∨ key.isInput ≠ row.isOutput

/-- The call indexes a directed row, under a key that has no row yet or one without a value. -/
def safe (index : AddressIndex) (call : Call) : Prop :=
  call.key.address = "" ∨
    Directed call.key call.row ∧ index.replaced call.key AddressTxRow.value = 0

/-- What all calls keep as long as no row with a value is replaced. -/
structure Kept (index : AddressIndex) : Prop where
  balanced : index.Balanced
  directed : ∀ key row, index.addressTxs.get? key = some row → Directed key row

/-- With one weight for what is indexed in both sums, a row with a value cannot be replaced. -/
lemma Kept.safe_iff {index : AddressIndex} (h : index.Kept) (key : AddressTxKey) (row : AddressTxRow) :
    (delta key row = counted key row - index.replaced key (counted key) ∧
        delta key row = recounted row - index.replaced key recounted) ↔
      Directed key row ∧ index.replaced key AddressTxRow.value = 0 := by
  simp only [replaced]
  cases hold : index.addressTxs.get? key with
  | none =>
    simp only [Option.map_none, Option.getD_none, delta, counted, recounted, Directed]
    cases key.isInput <;> cases row.isOutput <;> simp
  | some old =>
    have hdirected := h.directed key old hold
    simp only [Option.map_some, Option.getD_some, delta, counted, recounted, Directed] at hdirected ⊢
    generalize key.isInput = isInput at hdirected ⊢
    generalize row.isOutput = isOutput at hdirected ⊢
    generalize old.isOutput = wasOutput at hdirected ⊢
    cases isInput <;> cases isOutput <;> cases wasOutput <;> simp at hdirected ⊢ <;> omega

lemma Kept.step {index : AddressIndex} (h : index.Kept) (call : Call) :
    ((step call index).Balanced ↔ safe index call) ∧
      ((step call index).Balanced → (step call index).Kept) := by
  obtain ⟨clock, key, row⟩ := call
  by_cases hkey : key.address = ""
  · have hsame : AddressIndex.step ⟨clock, key, row⟩ index = index := if_pos hkey
    rw [hsame]
    exact ⟨iff_of_true h.balanced (.inl hkey), fun _ => h⟩
  · have hsafe : (index.indexAddress clock key row).Balanced ↔ safe index ⟨clock, key, row⟩ := by
      rw [balanced_indexAddress_iff h.balanced hkey, h.safe_iff, safe, or_iff_right hkey]
    refine ⟨hsafe, fun hbalanced => ⟨hbalanced, ?_⟩⟩
    intro key' row' hget
    rw [AddressIndex.step, addressTxs_indexAddress hkey, KeyedRows.get?_insertOrReplace] at hget
    split_ifs at hget with hkey'
    · rw [hkey', ← Option.some.inj hget]
      exact ((hsafe.1 hbalanced).resolve_left hkey).1
    · exact h.directed key' row' hget

end AddressIndex
end BerzCoin
