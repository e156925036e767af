import BerzCoin.StorageTables
import BerzCoin.WalletManager

/-! The coins that a wallet counts as its balance, and the coins and keys that it sends with. -/
namespace BerzCoin

/-- A row of the `utxo` table under its outpoint. -/
abbrev Coin : Type := Outpoint × UtxoRow

/-- What the wallet asks the chain state for. -/
structure WalletChain where
  utxo : KeyedRows Outpoint UtxoRow
  bestHeight : ℤ
  coinbaseMaturity : ℤ

namespace WalletChain
variable (chain : WalletChain)

/-- Rows of one value stay in the order of the table. -/
def getUtxosForAddress (address : Text) (limit : ℕ) : List Coin :=
  ((chain.utxo.rows.filter fun coin => coin.2.address = some address).mergeSort
    fun coin coin' => coin'.2.value.1 ≤ coin.2.value.1).take limit

def confirmations (coin : Coin) : ℤ :=
  if 0 < coin.2.height then chain.bestHeight - coin.2.height + 1 else 0

/-- A coinbase that cannot be spent yet. -/
def immature (coin : Coin) : Bool :=
  coin.2.isCoinbase && chain.confirmations coin < chain.coinbaseMaturity

/-- A coin that adds to the spendable balance. -/
def mature (coin : Coin) : Bool := 0 < chain.confirmations coin && !chain.immature coin

end WalletChain

/-- The satoshis in each bucket. -/
structure BalanceBreakdown where
  total : ℕ
  spendable : ℕ
  immatureCoinbase : ℕ
  unconfirmed : ℕ
  deriving DecidableEq, Repr

namespace BalanceBreakdown

def zero : BalanceBreakdown := ⟨0, 0, 0, 0⟩

/-- One coin of the loop. -/
def count (chain : WalletChain) (totals : BalanceBreakdown) (coin : Coin) : BalanceBreakdown :=
  let value := coin.2.value.1
  let totals := { totals with total := totals.total + value }
  if chain.confirmations coin ≤ 0 then { totals with unconfirmed := totals.unconfirmed + value }
  else if chain.immature coin then
    { totals with immatureCoinbase := totals.immatureCoinbase + value }
  else { totals with spendable := totals.spendable + value }

end BalanceBreakdown

/-- `immature_sats / 100000000:.8f`. -/
def formatBerz (sats : ℕ) : String :=
  let decimals := toString (sats % 100000000)
  toString (sats / 100000000) ++ "." ++
    String.ofList (List.replicate (8 - decimals.length) '0') ++ decimals

/-- `bytes.fromhex` on a text without blanks. -/
def bytesFromHex : Text → Except PyError Bytes
  | [] => .ok []
  | [_] => .error (.valueError "non-hexadecimal number found in fromhex() arg")
  | c :: d :: rest => do
    if c.toLower ∉ HEX_DIGITS ∨ d.toLower ∉ HEX_DIGITS then
      throw (.valueError "non-hexadecimal number found in fromhex() arg")
    let b := UInt8.ofNat (16 * HEX_DIGITS.idxOf c.toLower + HEX_DIGITS.idxOf d.toLower)
    return b :: (← bytesFromHex rest)

namespace SimpleWallet

/-- The addresses that `get_balance_breakdown` goes through. -/
def tracked (wallet : SimpleWallet) : List Text :=
  let tracked := wallet.trackedAddresses
  let tracked :=
    if wallet.address ≠ [] ∧ wallet.address ∉ tracked then tracked ++ [wallet.address] else tracked
  if tracked = [] then [wallet.address] else tracked

end SimpleWallet

namespace SimpleWalletManager
variable {Sealed : Type} (L : WalletLib Sealed) (m : SimpleWalletManager Sealed)
  (chain : WalletChain)

def getBalanceBreakdown : BalanceBreakdown :=
  match m.activeWallet with
  | none => .zero
  | some wallet =>
    wallet.tracked.foldl (fun totals addr =>
      (chain.getUtxosForAddress addr 1000).foldl (BalanceBreakdown.count chain) totals) .zero

/-- `spendable_utxos` of `send_to_address`. -/
def spendableUtxos : Except PyError (List Coin) :=
  match m.activeWallet with
  | none => .error (.valueError "No active wallet")
  | some wallet =>
    if wallet.watchOnly then
      .error (.valueError "Active wallet is watch-only and cannot sign transactions")
    else
      let utxos := chain.getUtxosForAddress wallet.address 1000
      if utxos = [] then .error (.valueError "No UTXOs found")
      else
        let spendableUtxos := utxos.filter fun coin => !chain.immature coin
        let immatureSats := ((utxos.filter chain.immature).map fun coin => coin.2.value.1).sum
        if spendableUtxos = [] then
          .error (.valueError ("No spendable UTXOs yet (coinbase maturity: " ++
            toString chain.coinbaseMaturity ++ ", immature=" ++ formatBerz immatureSats ++ " BERZ)"))
        else .ok spendableUtxos

/-- The key that `send_to_address` signs with, and the public key that it puts beside each
signature. -/
def signingKeys (now : ℚ) : Except PyError (ℕ × Bytes) :=
  match m.activeWallet, getActivePrivateKey now m with
  | some wallet, .ok (some privateKeyHex) _ => do
    if privateKeyHex = [] then throw locked
    let privateKey ← PrivateKey.check (hexValue privateKeyHex)
    return (privateKey, ← bytesFromHex wallet.publicKeyHex)
  | _, _ => .error locked
where
  locked := .valueError "Wallet is locked. Use walletpassphrase <passphrase> <timeout>"

def isWalletUnlocked (now : ℚ) : Bool :=
  match getActivePrivateKey now m with
  | .ok key _ => key.any fun privateKeyHex => privateKeyHex ≠ []
  | .error _ _ => false

/-- The coins whose values make up the spendable balance. -/
def countedSpendable : List Coin :=
  match m.activeWallet with
  | none => []
  | some wallet => wallet.tracked.flatMap fun addr =>
      (chain.getUtxosForAddress addr 1000).filter chain.mature

/-- The key of the address can sign for the coin. -/
def KeyOf (publicKey : Bytes) (address : Text) : Prop :=
  ∃ network, publicKeyToAddress L publicKey network false = .ok address

/-- The coin is one that the send path considers, and the key that it signs with is the one that
the address of the coin needs. -/
def CanSend (now : ℚ) (coin : Coin) : Prop :=
  (∃ candidates, m.spendableUtxos chain = .ok candidates ∧ coin ∈ candidates) ∧
    ∃ privateKey address, m.signingKeys now = .ok (privateKey, L.privateToPublic privateKey) ∧
      coin.2.address = some address ∧ KeyOf L (L.privateToPublic privateKey) address

/-- The unlocked key is that of the public key and of the address of the wallet. -/
def HoldsKey (wallet : SimpleWallet) (privateKeyHex : Text) : Prop :=
  ∃ privateKey, PrivateKey.check (hexValue privateKeyHex) = .ok privateKey ∧
    bytesFromHex wallet.publicKeyHex = .ok (L.privateToPublic privateKey) ∧
    KeyOf L (L.privateToPublic privateKey) wallet.address

section spending
variable {L} {m} {chain} {wallet : SimpleWallet} {key : Text} {now : ℚ} {coin : Coin}

lemma count_spendable (totals : BalanceBreakdown) (coin : Coin) :
    (totals.count chain coin).spendable =
      totals.spendable + if chain.mature coin then coin.2.value.1 else 0 := by
  unfold BalanceBreakdown.count WalletChain.mature
  by_cases hconf : chain.confirmations coin ≤ 0
  · simp [hconf]
  · by_cases himmature : chain.immature coin
    · simp [hconf, himmature]
    · simp [hconf, himmature, not_le.1 hconf]

lemma foldl_count_spendable (coins : List Coin) (totals : BalanceBreakdown) :
    (coins.foldl (BalanceBreakdown.count chain) totals).spendable =
      totals.spendable + ((coins.filter chain.mature).map fun coin => coin.2.value.1).sum := by
  induction coins generalizing totals with
  | nil => simp
  | cons coin coins ih =>
    rw [List.foldl_cons, ih, count_spendable]
    by_cases hmature : chain.mature coin
    · simp [hmature]
      omega
    · simp [hmature]

/-- The spendable balance is the sum of the coins that are counted. -/
lemma getBalanceBreakdown_spendable : (m.getBalanceBreakdown chain).spendable =
    ((m.countedSpendable chain).map fun coin => coin.2.value.1).sum := by
  unfold getBalanceBreakdown countedSpendable
  cases m.activeWallet with
  | none => rfl
  | some wallet =>
    have hfold (addrs : List Text) (totals : BalanceBreakdown) :
        (addrs.foldl (fun totals addr => (chain.getUtxosForAddress addr 1000).foldl
          (BalanceBreakdown.count chain) totals) totals).spendable = totals.spendable +
        ((addrs.flatMap fun addr => (chain.getUtxosForAddress addr 1000).filter
          chain.mature).map fun coin => coin.2.value.1).sum := by
      induction addrs generalizing totals with
      | nil => simp
      | cons addr addrs ih =>
        rw [List.foldl_cons, ih, foldl_count_spendable, List.flatMap_cons, List.map_append,
          List.sum_append]
        omega
    rw [hfold]
    exact Nat.zero_add _

lemma address_of_mem {addr : Text} {limit : ℕ}
    (h : coin ∈ chain.getUtxosForAddress addr limit) : coin.2.address = some addr := by
  have hmem := List.mem_of_mem_take h
  rw [List.mem_mergeSort, List.mem_filter] at hmem
  exact of_decide_eq_true hmem.2

lemma exists_key_of_unlocked (h : m.isWalletUnlocked now = true) :
    ∃ key, m.activePrivateKey = some key ∧ key ≠ [] ∧
      getActivePrivateKey now m = .ok (some key) m := by
  by_cases hexpired : m.activePrivateKey.isSome ∧ m.unlockedUntil ≤ now
  · have hrun : getActivePrivateKey now m =
        .ok none { m with activePrivateKey := none, unlockedUntil := 0 } := by
      simp only [getActivePrivateKey, bind_apply, get_apply, if_pos hexpired, lockWallet_apply]
      rfl
    rw [isWalletUnlocked, hrun] at h
    cases h
  · have hrun : getActivePrivateKey now m = .ok m.activePrivateKey m := by
      simp only [getActivePrivateKey, bind_apply, get_apply, if_neg hexpired]
      rfl
    rw [isWalletUnlocked, hrun] at h
    cases hkey : m.activePrivateKey with
    | none =>
      rw [hkey] at h
      cases h
    | some key =>
      rw [hkey] at h hrun
      exact ⟨key, rfl, of_decide_eq_true h, hrun⟩

lemma signingKeys_ok_iff (hactive : m.activeWallet = some wallet) (hne : key ≠ [])
    (hrun : getActivePrivateKey now m = .ok (some key) m) {privateKey : ℕ} {publicKey : Bytes} :
    m.signingKeys now = .ok (privateKey, publicKey) ↔
      PrivateKey.check (hexValue key) = .ok privateKey ∧
        bytesFromHex wallet.publicKeyHex = .ok publicKey := by
  simp only [signingKeys, hactive, hrun, if_neg hne]
  cases PrivateKey.check (hexValue key) with
  | error e => simp [bind, Except.bind]
  | ok k =>
    cases bytesFromHex wallet.publicKeyHex with
    | error e => simp [bind, Except.bind]
    | ok b => simp [bind, Except.bind, pure, Except.pure]

lemma mem_spendableUtxos (hactive : m.activeWallet = some wallet) (hwatch : wallet.watchOnly = false)
    (hcoin : coin ∈ chain.getUtxosForAddress wallet.address 1000) (hmature : chain.mature coin) :
    ∃ candidates, m.spendableUtxos chain = .ok candidates ∧ coin ∈ candidates := by
  have hspendable : coin ∈ (chain.getUtxosForAddress wallet.address 1000).filter
      fun coin => !chain.immature coin := by
    rw [List.mem_filter]
    exact ⟨hcoin, (Bool.and_eq_true_iff.1 hmature).2⟩
  refine ⟨_, ?_, hspendable⟩
  simp only [spendableUtxos, hactive, hwatch, Bool.false_eq_true, if_false]
  rw [if_neg (List.ne_nil_of_mem hcoin), if_neg (List.ne_nil_of_mem hspendable)]

lemma of_mem_spendableUtxos (hactive : m.activeWallet = some wallet) {candidates : List Coin}
    (h : m.spendableUtxos chain = .ok candidates) (hcoin : coin ∈ candidates) :
    wallet.watchOnly = false ∧ coin.2.address = some wallet.address := by
  simp only [spendableUtxos, hactive] at h
  split_ifs at h with hwatch hnil hnone
  cases h
  exact ⟨Bool.eq_false_iff.2 hwatch, address_of_mem (List.mem_filter.1 hcoin).1⟩

lemma mem_countedSpendable (hactive : m.activeWallet = some wallet) :
    coin ∈ m.countedSpendable chain ↔ ∃ addr ∈ wallet.tracked,
      coin ∈ chain.getUtxosForAddress addr 1000 ∧ chain.mature coin := by
  simp only [countedSpendable, hactive, List.mem_flatMap, List.mem_filter]

lemma canSend_of_holdsKey (hactive : m.activeWallet = some wallet) (hne : key ≠ [])
    (hrun : getActivePrivateKey now m = .ok (some key) m) (hwatch : wallet.watchOnly = false)
    (hholds : HoldsKey L wallet key) (hmature : chain.mature coin)
    (hcoin : coin ∈ chain.getUtxosForAddress wallet.address 1000) : m.CanSend L chain now coin := by
  obtain ⟨privateKey, hcheck, hpublic, haddress⟩ := hholds
  exact ⟨mem_spendableUtxos hactive hwatch hcoin hmature, privateKey, wallet.address,
    (signingKeys_ok_iff hactive hne hrun).2 ⟨hcheck, hpublic⟩, address_of_mem hcoin, haddress⟩

lemma of_canSend (hactive : m.activeWallet = some wallet) (hne : key ≠ [])
    (hrun : getActivePrivateKey now m = .ok (some key) m) {addr : Text}
    (hcoin : coin ∈ chain.getUtxosForAddress addr 1000) (h : m.CanSend L chain now coin) :
    addr = wallet.address ∧ wallet.watchOnly = false ∧ HoldsKey L wallet key := by
  obtain ⟨⟨candidates, hcandidates, hmem⟩, privateKey, address, hkeys, haddress, hkeyOf⟩ := h
  obtain ⟨hwatch, hactiveAddress⟩ := of_mem_spendableUtxos hactive hcandidates hmem
  obtain ⟨hcheck, hpublic⟩ := (signingKeys_ok_iff hactive hne hrun).1 hkeys
  have hsame : address = wallet.address := Option.some.inj (haddress.symm.trans hactiveAddress)
  have haddr := Option.some.inj ((address_of_mem hcoin).symm.trans hactiveAddress)
  rw [hsame] at hkeyOf
  exact ⟨haddr, hwatch, privateKey, hcheck, hpublic, hkeyOf⟩

/-- Spendable coins are counted at every address of the wallet and sent from the active one only. -/
theorem canSend_iff (hunlocked : m.isWalletUnlocked now = true) :
    (∀ coin ∈ m.countedSpendable chain, m.CanSend L chain now coin) ↔
      ∀ wallet key, m.activeWallet = some wallet → m.activePrivateKey = some key →
        ∀ addr ∈ wallet.tracked,
          (∃ coin ∈ chain.getUtxosForAddress addr 1000, chain.mature coin) →
            addr = wallet.address ∧ wallet.watchOnly = false ∧ HoldsKey L wallet key := by
  obtain ⟨key, hkey, hne, hrun⟩ := exists_key_of_unlocked hunlocked
  constructor
  · intro h wallet key' hactive hkey' addr haddr hmature
    obtain ⟨coin, hcoin, hmature⟩ := hmature
    have hsame : key' = key := Option.some.inj (hkey'.symm.trans hkey)
    rw [hsame]
    apply of_canSend hactive hne hrun hcoin
    exact h coin ((mem_countedSpendable hactive).2 ⟨addr, haddr, hcoin, hmature⟩)
  · intro h coin hcounted
    cases hactive : m.activeWallet with
    | none =>
      rw [countedSpendable, hactive] at hcounted
      cases hcounted
    | some wallet =>
      obtain ⟨addr, haddr, hcoin, hmature⟩ := (mem_countedSpendable hactive).1 hcounted
      obtain ⟨rfl, hwatch, hholds⟩ := h wallet key hactive hkey addr haddr ⟨coin, hcoin, hmature⟩
      exact canSend_of_holdsKey hactive hne hrun hwatch hholds hmature hcoin

end spending

end SimpleWalletManager

/-! A wallet that is made, activated and asked for another address. -/
namespace SpendingExample
open SimpleWalletManager WalletCall WalletExample

def first : Text := "1LqBGSKuX5yYUonjxT5qGfpUsXKYYWeabA".toList

def second : Text := "1Ak8PffB2meyfYnbXZR9EGfLfFZVpzJvQP".toList

def privateKey : Text := "e284129cc0922579a535bbf4d1a3b25773090d28c909bc0fed73b5e0222cc372".toList

/-- With what the second address needs. -/
def library : WalletLib (Text × SimpleWallet) :=
  { crypto with
    sha256 := (Hashlib.ofDigests [
      (beBytes 33 0x03aaeb52dd7494c361049de67cc680e83ebcbbbdbeb13637d92cd845f70308af5e,
        beBytes 32 0xa41ac9373b9868ec0ac47b571ae61b5169dd2a32b52ccd668a99b95fadb86b8f),
      (beBytes 21 0x00d986ed01b7a22225a70edbf2ba7cfb63a15cb3aa,
        beBytes 32 0xa998ae69d110e6fca4d4b7652e7be3a519098830c2fc56a31428fbdca0f7eb65),
      (beBytes 32 0xa998ae69d110e6fca4d4b7652e7be3a519098830c2fc56a31428fbdca0f7eb65,
        beBytes 32 0x2b4daf193cb841bf5b60aacfc3bebcecc6c9b35ae6dc83281c4223764afb8c7c),
      (beBytes 33 0x02dfcaec532010d704860e20ad6aff8cf3477164ffb02f93d45c552dadc70ed24f,
        beBytes 32 0xb7a7e0c955ce1f101f26b0dc36d6aac4cc9c25531649fe8d8f55d66ef927e573),
      (beBytes 21 0x006ae1301cf44ca525751d1763ac4fef12d1153986,
        beBytes 32 0x4b219abc952e73269f1a83fe6a4cdcbcdf1bc9117acf754449c5aa316b85f237),
      (beBytes 32 0x4b219abc952e73269f1a83fe6a4cdcbcdf1bc9117acf754449c5aa316b85f237,
        beBytes 32 0x94f950580e1e832ac0d24521072402317431e912c3a66f49a448b16217f1e1dc)]).sha256
    ripemd160 := fun data =>
      if data = beBytes 32 0xb7a7e0c955ce1f101f26b0dc36d6aac4cc9c25531649fe8d8f55d66ef927e573 then
        beBytes 20 0x6ae1301cf44ca525751d1763ac4fef12d1153986
      else crypto.ripemd160 data
    hmacSha512 := fun key data =>
      if data = beBytes 37
          0x0386b865b52b753d0a84d09bc20063fab5d8453ec33c215d4019a5801c9c6438b900000001 then
        beBytes 64
          0xd8539c2e610bb19b9bd339a7ecf7997cb92501061b1362a6c535dbe2d6b9dc96035a07e55d123c872e271a70531e1f30402aa2221efb1d354190e0c25aff10ce
      else crypto.hmacSha512 key data
    privateToPublic := fun key =>
      if key = 0x5c1141f60edd3095579529db7e88d964cb0a9ec0f814f6a10cd5cbd763078a0c then
        beBytes 33 0x02dfcaec532010d704860e20ad6aff8cf3477164ffb02f93d45c552dadc70ed24f
      else crypto.privateToPublic key }

def activated : SimpleWalletManager (Text × SimpleWallet) :=
  [WalletCall.createWallet mnemonic [] .done 0, .activateWallet privateKey [first] [] .done 1].foldl
    (fun m call => call.after library m) (opened .mainnet KeyedRows.empty [] 300)

def derived : SimpleWalletManager (Text × SimpleWallet) :=
  (WalletCall.deriveNewAddress [] .done 2).after library activated

lemma fiftyCoins_lt : 5000000000 < 2 ^ 63 := by decide

/-- Fifty coins at the first address, in the last block. -/
def chain : WalletChain where
  utxo := KeyedRows.empty.insertOrReplace (List.replicate 32 1, 0)
    ⟨⟨5000000000, fiftyCoins_lt⟩, [0x76, 0xa9, 0x14] ++
      beBytes 20 0xd986ed01b7a22225a70edbf2ba7cfb63a15cb3aa ++ [0x88, 0xac], 1, false, some first⟩
  bestHeight := 1
  coinbaseMaturity := 100

/-- The address, the tracked addresses, the flag and the public key of the active wallet. -/
def activeFields (m : SimpleWalletManager (Text × SimpleWallet)) :
    Option (Text × List Text × Bool × Except PyError Bytes) :=
  m.activeWallet.map fun wallet =>
    (wallet.address, wallet.tracked, wallet.watchOnly, bytesFromHex wallet.publicKeyHex)

lemma activated_spec : activated.isWalletUnlocked 3 = true ∧
    activated.activePrivateKey = some privateKey ∧
    activeFields activated = some (first, [first], false,
      .ok (library.privateToPublic (hexValue privateKey))) := by
  decide +kernel

lemma key_spec : PrivateKey.check (hexValue privateKey) = .ok (hexValue privateKey) ∧
    publicKeyToAddress library (library.privateToPublic (hexValue privateKey)) .mainnet false =
      .ok first := by
  decide +kernel

/-- The coins of the first address can be sent while it is the active one. -/
theorem canSend_activated : activated.isWalletUnlocked 3 = true ∧
    ∀ coin ∈ activated.countedSpendable chain, activated.CanSend library chain 3 coin := by
  obtain ⟨hunlocked, hprivate, hfields⟩ := activated_spec
  refine ⟨hunlocked, ?_⟩
  apply (canSend_iff hunlocked).2
  intro wallet key hactive hkey addr haddr _
  simp only [activeFields, hactive, Option.map_some, Option.some.injEq, Prod.mk.injEq] at hfields
  obtain ⟨haddress, htracked, hwatch, hpublic⟩ := hfields
  rw [htracked, List.mem_singleton] at haddr
  rw [hprivate] at hkey
  cases hkey
  refine ⟨haddr.trans haddress.symm, hwatch, hexValue privateKey, key_spec.1, hpublic, .mainnet, ?_⟩
  rw [haddress]
  exact key_spec.2

/-- After another address they are still counted, and the send path finds no coins. -/
theorem derived_cannot_send : derived.isWalletUnlocked 3 = true ∧
    (derived.getBalanceBreakdown chain).spendable = 5000000000 ∧
    derived.spendableUtxos chain = .error (.valueError "No UTXOs found") ∧
    ¬ ∀ coin ∈ derived.countedSpendable chain, derived.CanSend library chain 3 coin := by
  have hcounted : (derived.getBalanceBreakdown chain).spendable = 5000000000 := by
    decide +kernel
  have hnone : derived.spendableUtxos chain = .error (.valueError "No UTXOs found") := by
    decide +kernel
  refine ⟨by decide +kernel, hcounted, hnone, ?_⟩
  intro h
  cases hcoins : derived.countedSpendable chain with
  | nil =>
    rw [getBalanceBreakdown_spendable, hcoins] at hcounted
    cases hcounted
  | cons coin coins =>
    obtain ⟨⟨candidates, hcandidates, -⟩, -⟩ := h coin (by rw [hcoins]; exact List.mem_cons_self)
    rw [hnone] at hcandidates
    cases hcandidates

end SpendingExample
end BerzCoin
