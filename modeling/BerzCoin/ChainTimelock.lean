import BerzCoin.StorageBlockFiles
import BerzCoin.ScriptPushes

/-! Coins locked by `<T> OP_CHECKLOCKTIMEVERIFY` and the blocks that spend them. The opcode
compares `T` with the transaction's `locktime`; nothing on the way to an accepted block compares
`locktime` with the height. -/
namespace BerzCoin

namespace Script
open Stack (Items)

/-- A script that starts with a push of the height and `OP_CHECKLOCKTIMEVERIFY`. -/
def LockedUntil (height : ℕ) (spk : Bytes) : Prop :=
  (0 < height ∧ height < 500000000) ∧
    ∃ lock item tail, spk = lock ++ Opcode.toByte .OP_CHECKLOCKTIMEVERIFY :: tail ∧
      parsePushOnlyItems lock = .ok [item] ∧ castToInt item = height

/-- A run of the two scripts as one, from where the first one ends. -/
lemma loop_after_scriptSig {ctx : Context} {scriptSig spk : Bytes} {items : Items}
    (hsig : runToEnd ctx scriptSig = .ok (some items))
    (h : execute ctx (scriptSig ++ spk) [] = .ok true) :
    ∃ k m n, m.rest = spk ∧ loop ctx k m = .ok (some n) ∧ n.rest = [] := by
  obtain ⟨-, m, hm, hif, -⟩ := runToEnd_eq_ok.1 hsig
  obtain ⟨-, -, n, hn, -⟩ := execute_eq_ok_true.1 h
  have hnil : m.rest = [] := loop_start_rest_nil hm
  have hend : n.rest = [] := loop_start_rest_nil hn
  obtain ⟨j, hj⟩ := loop_append spk hm hif
  have hstart : (start scriptSig []).append spk = start (scriptSig ++ spk) [] := rfl
  rw [hstart] at hj
  -- with more fuel the run that ends passes through the same machine
  have hlong := @loop_enough ctx _ (j + (scriptSig ++ spk).length) _ _ hn hend
    (Nat.le_add_left _ _)
  obtain ⟨m', hm', hrun⟩ := loop_add.1 hlong
  obtain rfl : m.append spk = m' := by
    rw [hj] at hm'
    cases hm'
    rfl
  exact ⟨_, _, n, by simp [hnil], hrun, hend⟩

/-- The opcode leaves the height on the stack and goes on only if `locktime` has reached it. -/
lemma step_checkLocktimeVerify {ctx : Context} {m n : Machine} {item : Bytes} {below : Items}
    (hflag : ctx.flags.isEnabled ScriptFlags.VERIFY_CHECKLOCKTIMEVERIFY = true)
    (hitems : m.items = item :: below)
    (h : step ctx (Opcode.toByte .OP_CHECKLOCKTIMEVERIFY) m = .ok (true, n)) :
    castToInt item ≤ ctx.checker.tx.locktime.toNat := by
  have hbyte : Opcode.ofByte (Opcode.toByte .OP_CHECKLOCKTIMEVERIFY) = some .OP_CHECKLOCKTIMEVERIFY :=
    rfl
  obtain ⟨op, hop, hstep⟩ := step_eq_ok h
  obtain rfl : .OP_CHECKLOCKTIMEVERIFY = op := Option.some.inj (hbyte.symm.trans hop)
  rcases hstep with ⟨hpush, -⟩ | ⟨-, -, -, hexec, -⟩
  · exact absurd hpush (by decide)
  · by_contra hlate
    have hfail : castToInt item < 0 ∨ (ctx.checker.tx.locktime.toNat : ℤ) < castToInt item :=
      Or.inr (not_le.1 hlate)
    simp [executeOpcode, executeStackOpcode, hflag, hitems, popOr, hfail, bind, Except.bind, throw,
      throwThe, MonadExceptOf.throw] at hexec

lemma eq_nil_of_parse_nil {script : Bytes} (h : parsePushOnlyItems script = .ok []) :
    script = [] := by
  cases script with
  | nil => rfl
  | cons b rest =>
    simp only [parsePushOnlyItems, List.length_cons, parsePushOnlyLoop, bind, Except.bind] at h
    cases hitem : parsePushOnlyItem b rest with
    | error e => simp [hitem] at h
    | ok p =>
      simp only [hitem] at h
      cases hrest : parsePushOnlyLoop rest.length p.2 with
      | error e => simp [hrest] at h
      | ok items => simp [hrest, pure, Except.pure] at h

/-- No script that starts with the push of a positive number is of one of the templates. -/
lemma isGeneric_of_push {lock item t : Bytes} {b : UInt8} (h : parsePushOnlyItems lock = .ok [item])
    (hitem : 0 < castToInt item) (hb : b ≠ 0x20) : isGeneric (lock ++ b :: t) = true := by
  cases lock with
  | nil => cases h
  | cons first rest =>
    simp only [parsePushOnlyItems, List.length_cons, parsePushOnlyLoop, bind, Except.bind] at h
    have hzero : first ≠ 0x00 := by
      rintro rfl
      simp only [parsePushOnlyItem, if_true] at h
      cases hrest : parsePushOnlyLoop rest.length rest with
      | error e => simp [hrest] at h
      | ok items =>
        simp only [hrest, pure, Except.pure, Except.ok.injEq, List.cons.injEq] at h
        rw [← h.1] at hitem
        exact absurd hitem (by decide)
    have hone : first = 0x51 → rest = [] := by
      rintro rfl
      have hread : parsePushOnlyItem 0x51 rest = .ok ([0x01], rest) := rfl
      simp only [hread] at h
      cases hrest : parsePushOnlyLoop rest.length rest with
      | error e => simp [hrest] at h
      | ok items =>
        simp only [hrest, pure, Except.pure, Except.ok.injEq, List.cons.injEq] at h
        rw [h.2] at hrest
        exact eq_nil_of_parse_nil hrest
    have hhash : first ≠ 0xa9 := by
      rintro rfl
      simp [parsePushOnlyItem] at h
    have hdup : first ≠ 0x76 := by
      rintro rfl
      simp [parsePushOnlyItem] at h
    have htr : isP2TR (first :: rest ++ b :: t) = false := by
      by_cases hfirst : first = 0x51
      · simp [isP2TR, hone hfirst, hb]
      · simp [isP2TR, hfirst]
    rw [isGeneric, htr]
    simp [isP2WPKH, isP2SH, isP2PKH, hzero, hhash, hdup]

/-- A spend of a locked coin is refused until `locktime` has reached the lock, provided that
`scriptSig` run alone comes to its end. -/
lemma locktime_of_verifyInputScript {C : Crypto} {tx : Transaction} {inputIndex amount flags T : ℕ}
    {scriptSig spk : Bytes} {items : Items}
    (hflag : ScriptFlags.isEnabled ⟨flags⟩ ScriptFlags.VERIFY_CHECKLOCKTIMEVERIFY = true)
    (hlock : LockedUntil T spk)
    (hsig : runToEnd (engineContext C tx inputIndex amount flags) scriptSig = .ok (some items))
    (h : verifyInputScript C tx inputIndex scriptSig spk amount flags = true) :
    T ≤ tx.locktime.toNat := by
  obtain ⟨⟨hpos, -⟩, lock, item, tail, rfl, hparse, hitem⟩ := hlock
  have hgeneric : isGeneric (lock ++ Opcode.toByte .OP_CHECKLOCKTIMEVERIFY :: tail) = true :=
    isGeneric_of_push hparse (by omega) (by decide)
  rw [verifyInputScript_generic C tx inputIndex amount flags hgeneric] at h
  obtain ⟨k, m, n, hrest, hrun, hend⟩ := loop_after_scriptSig hsig h
  obtain ⟨k', hk'⟩ := loop_of_pushes_append hparse (le_refl _) hrest hrun hend
  cases k' with
  | zero =>
    cases hk'
    cases hend
  | succ k' =>
    obtain ⟨m', hstep, -⟩ := (loop_cons rfl).1 hk'
    have hle := step_checkLocktimeVerify hflag rfl hstep
    rw [hitem] at hle
    exact_mod_cast hle

end Script

namespace BlockValidator
open Script (Crypto)

section accepted
variable {C : Crypto} {params : ConsensusParams} {getUtxo : Outpoint → Option UtxoRow} {height : ℕ}

/-- Every input that the loop accepts spends a coin whose script it satisfies. -/
lemma validateInputs_each {tx : Transaction} {vin : List TxIn} {idx : ℕ} {seen : List Outpoint}
    (h : validateInputs C params getUtxo tx height idx seen vin = true) :
    ∀ i txin utxo, vin[i]? = some txin → getUtxo txin.outpoint = some utxo →
      Script.verifyInputScript C tx (idx + i) txin.scriptSig utxo.scriptPubkey utxo.value.1
        Script.ScriptFlags.STANDARD_VERIFY_FLAGS = true := by
  induction vin generalizing idx seen with
  | nil => intro i txin utxo hi; simp at hi
  | cons first vin ih =>
    intro i txin utxo hi hutxo
    rw [validateInputs] at h
    split_ifs at h with hseen
    cases hfirst : getUtxo first.outpoint with
    | none => simp [hfirst] at h
    | some coin =>
      simp only [hfirst] at h
      split_ifs at h with himmature hscript
      cases i with
      | zero =>
        cases hi
        rw [hutxo] at hfirst
        cases hfirst
        simpa using hscript
      | succ i =>
        have hnext := ih h i txin utxo (by simpa using hi) hutxo
        rwa [show idx + 1 + i = idx + (i + 1) by omega] at hnext

lemma validateInputs_of_validateTransaction {tx : Transaction}
    (h : validateTransaction C params getUtxo tx height false = true) :
    validateInputs C params getUtxo tx height 0 [] tx.vin = true := by
  unfold validateTransaction at h
  split_ifs at h with hversion hcb hempty hsize hinputs
  simpa using hinputs

lemma isCoinbase_of_validateTransaction {tx : Transaction} {isCoinbase : Bool}
    (h : validateTransaction C params getUtxo tx height isCoinbase = true) :
    tx.isCoinbase = isCoinbase := by
  unfold validateTransaction at h
  split_ifs at h with hversion hcb
  simpa using hcb

end accepted

/-- The lock is kept in every block whose spending transaction has a `locktime` that the block's
height has reached and a `scriptSig` that comes to its own end. -/
theorem timelock_of_final (C : Crypto) (params : ConsensusParams)
    (getUtxo : Outpoint → Option UtxoRow) (b : BlockIndex) (now : ℕ) (block : Block) (h T : ℕ)
    (haccepted : validateBlock C params getUtxo b now block h = .ok true)
    (tx : Transaction) (htx : tx ∈ block.transactions) (hspend : tx.isCoinbase = false)
    (i : ℕ) (txin : TxIn) (hi : tx.vin[i]? = some txin)
    (coin : UtxoRow) (hcoin : getUtxo txin.outpoint = some coin)
    (hlock : Script.LockedUntil T coin.scriptPubkey)
    (hfinal : tx.locktime.toNat ≤ h)
    (items : Script.Stack.Items)
    (hsig : Script.runToEnd (Script.engineContext C tx i coin.value.1
      Script.ScriptFlags.STANDARD_VERIFY_FLAGS) txin.scriptSig = .ok (some items)) :
    T ≤ h := by
  obtain ⟨isCoinbase, hvalid⟩ := validateTransactions_each (validateBlock_true haccepted).1 tx htx
  obtain rfl := (isCoinbase_of_validateTransaction hvalid).symm.trans hspend
  have hinput := validateInputs_each (validateInputs_of_validateTransaction hvalid) i txin coin hi hcoin
  rw [Nat.zero_add] at hinput
  have hreached := Script.locktime_of_verifyInputScript (by decide) hlock hsig hinput
  omega

/-! Two blocks at height 2 that spend a coin locked until the `locktime` of the spending
transaction: until 2 and until 500. -/
namespace TimelockExample
open BlockExample (coinbase blockOn coinbase2Id genesis genesisHash hashlib)

def input : TxIn := ⟨List.replicate 32 0x11, 0, [], 0xfffffffe, []⟩

def spendAt (locktime : UInt32) : Transaction :=
  { version := 1
    vin := [input]
    vout := [⟨900, [0x51]⟩]
    locktime := locktime }

def blockWith (locktime : UInt32) (merkleRoot : ℕ) (nonce : UInt32) : Block :=
  blockOn genesisHash merkleRoot 1001 nonce [coinbase 2, spendAt locktime]

def dueBlock : Block :=
  blockWith 2 0x9eee750f4003caf6f9cdb9266fc1284efaf6c26f95a636178c3d75fb7cbe445b 5

def earlyBlock : Block :=
  blockWith 500 0xf052d04573d3f0e0a8c78ca242ddc25152e3e10fc5e2a4ac45b22c6e972475fd 1

def dueId : ℕ := 0x8656a6d662b21103c5a03e6680468cf9407f88d8c8086ba3a0ab37abdfd7ebab

def earlyId : ℕ := 0x0104ee0d0ef2f292284b4de4eb20ee3f1dc8cddd0115559dab08a5aee8dee9d7

def crypto : Crypto := .ofHashlib <| hashlib.withDigests [
  ((spendAt 2).serialize false,
    0x53d15715d3d4ffead2f233fe75e978aa599e76b45dfadbec3ad9e1784eb372f9, dueId),
  ((spendAt 500).serialize false,
    0x2e4ada8bb27e0d0f40efd2737a36478efaa991414e1e1291e2b673cd09454c16, earlyId),
  (beBytes 32 coinbase2Id ++ beBytes 32 dueId,
    0xf207b7a7e7dca724cb72c186e0b2e3dcd1f827d6d1b91941be60276f893bbd07,
    0x9eee750f4003caf6f9cdb9266fc1284efaf6c26f95a636178c3d75fb7cbe445b),
  (beBytes 32 coinbase2Id ++ beBytes 32 earlyId,
    0x866a8ebb79a71685538d9895ef65e38a8e61e2bcd5d7912aff8c8fe34f0aa89b,
    0xf052d04573d3f0e0a8c78ca242ddc25152e3e10fc5e2a4ac45b22c6e972475fd),
  (dueBlock.header.serialize,
    0xd81ef6d2f4806fd8a2a2f1daa8a5a37a189dda89fe119a74fb84ccd2cbd0da45,
    0x5090c7e9255c1ca6bb5ddf83553e982bd69c29a39de48bb5b55a5eca6670ff92),
  (earlyBlock.header.serialize,
    0x100d9018a9a926f0b55b1f5932b2b96726a7784b584f6000a241b7ff4b1cac99,
    0x5f81ecbcdbf9711782c1cb7a313bb8785b8bcb322e14e71daa36b79afa829a73)]

def index : BlockIndex :=
  { BlockIndex.empty with
    index := KeyedRows.empty.put (beBytes 32 genesisHash)
      ⟨1, beBytes 32 genesisHash, genesis.header, 4, {.HEADER, .BLOCK, .VALID}⟩ }

/-- A coin that anyone can spend once the lock is open. -/
def coinWith (lock : Bytes) : UtxoRow :=
  { value := ⟨1000, by decide⟩, scriptPubkey := lock ++ [0xb1], height := 1, isCoinbase := false,
    address := none }

def coinsWith (lock : Bytes) (outpoint : Outpoint) : Option UtxoRow :=
  if outpoint = (List.replicate 32 0x11, 0) then some (coinWith lock) else none

/-- `OP_2`. -/
def dueLock : Bytes := [0x52]

/-- `OP_PUSHDATA1` of the two bytes of 500. -/
def earlyLock : Bytes := [0x4c, 0x02, 0xf4, 0x01]

end TimelockExample

open TimelockExample in
theorem timelock_of_final_due :
    validateBlock crypto .regtest (coinsWith dueLock) index 2000 dueBlock 2 = .ok true ∧ 2 ≤ 2 :=
  ⟨by decide +kernel,
    timelock_of_final crypto .regtest (coinsWith dueLock) index 2000 dueBlock 2 2 (by decide +kernel)
      (spendAt 2) (by decide +kernel) (by decide +kernel) 0 input rfl
      (coinWith dueLock) rfl ⟨by decide, dueLock, [0x02], [], rfl, rfl, rfl⟩ (by decide) [] rfl⟩

open TimelockExample in
/-- The coin is locked until height 500 and spent at height 2. -/
theorem timelock_open_early :
    validateBlock crypto .regtest (coinsWith earlyLock) index 2000 earlyBlock 2 = .ok true ∧
      spendAt 500 ∈ earlyBlock.transactions ∧ input ∈ (spendAt 500).vin ∧
      coinsWith earlyLock input.outpoint = some (coinWith earlyLock) ∧
      Script.LockedUntil 500 (coinWith earlyLock).scriptPubkey ∧ ¬ 500 ≤ 2 :=
  ⟨by decide +kernel, by decide +kernel, by decide +kernel, by decide +kernel,
    ⟨by decide, earlyLock, [0xf4, 0x01], [], rfl, by decide, by decide⟩, by decide⟩

end BlockValidator
end BerzCoin
