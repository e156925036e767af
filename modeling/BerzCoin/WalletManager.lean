import BerzCoin.OperationRuns
import BerzCoin.WalletKeys

/-! `SimpleWalletManager`: the wallet files, the active wallet and the key that is unlocked. -/
namespace BerzCoin
open OperationRuns

/-- What a file of the wallets directory holds. -/
inductive WalletFile (Sealed : Type)
  | plaintext (record : SimpleWallet)
  | encrypted (payload : Sealed)
  | unreadable

structure SimpleWalletManager (Sealed : Type) where
  network : Network
  files : KeyedRows Text (WalletFile Sealed)
  activeWallet : Option SimpleWallet
  activePrivateKey : Option Text
  defaultUnlockTimeoutSecs : ℕ
  unlockedUntil : ℚ
  passphrase : Text

/-- How the writing of a file ends: `open` can fail, and so can what follows on the open file. -/
inductive Writing
  | done
  | refused
  | cutShort
  deriving DecidableEq

abbrev ManagerM (Sealed α : Type) := EStateM PyError (SimpleWalletManager Sealed) α

namespace SimpleWalletManager
variable {Sealed : Type} (L : WalletLib Sealed)

def raising {α : Type} : Except PyError α → ManagerM Sealed α
  | .ok a => pure a
  | .error e => throw e

def saveWallet (wallet : SimpleWallet) (salt : Bytes) (writing : Writing) : ManagerM Sealed Unit := do
  let m ← get
  let name := stripText wallet.toRecord.walletId
  match writing with
  | .done =>
    set { m with files := m.files.put name (.encrypted (L.encrypt m.passphrase wallet.toRecord salt)) }
  | .refused => throw (.storageError "cannot open the wallet file")
  | .cutShort =>
    set { m with files := m.files.put name .unreadable }
    throw (.storageError "cannot write the wallet file")

/-- `_try_decode_wallet_record`, with the reading of the file. -/
def tryDecode (passphrase : Text) : WalletFile Sealed → Option SimpleWallet
  | .plaintext record => some record
  | .encrypted payload => L.decrypt passphrase payload
  | .unreadable => none

/-- `_load_wallet_by_private_key`: `listing` is the order in which `glob` gives the files. -/
def loadWalletByPrivateKey (m : SimpleWalletManager Sealed) (privateKeyHex : Text)
    (listing : List Text) : Except PyError (Option SimpleWallet) := do
  let target ← normalizePrivateKeyHex L privateKeyHex
  return listing.findSome? fun name => do
    let record ← tryDecode L m.passphrase (← m.files.get? name)
    if normalizePrivateKeyHex L record.privateKeyHex = .ok target then some record else none

def unlockFor (timeoutSecs : ℤ) (privateKeyHex : Text) (now : ℚ) : ManagerM Sealed Unit := do
  let key ← raising (normalizePrivateKeyHex L privateKeyHex)
  modify ({ · with activePrivateKey := some key, unlockedUntil := now + max 1 timeoutSecs })

def lockWallet : ManagerM Sealed Unit :=
  modify ({ · with activePrivateKey := none, unlockedUntil := 0 })

/-- `create_wallet`, with the mnemonic that it generates. -/
def createWallet (mnemonic : Text) (salt : Bytes) (writing : Writing) (now : ℚ) :
    ManagerM Sealed SimpleWallet := do
  let wallet ← raising (SimpleWallet.create L (← get).network mnemonic now)
  saveWallet L wallet salt writing
  unlockFor L (← get).defaultUnlockTimeoutSecs wallet.privateKeyHex now
  return wallet

/-- The wallet of a key, stored if it is new. -/
def findOrImport (normalizedKey : Text) (listing : List Text) (salt : Bytes) (writing : Writing)
    (now : ℚ) : ManagerM Sealed SimpleWallet := do
  match ← raising ((← get).loadWalletByPrivateKey L normalizedKey listing) with
  | some wallet => return wallet
  | none =>
    let wallet ← raising (SimpleWallet.fromPrivateKey L normalizedKey (← get).network now)
    saveWallet L wallet salt writing
    return wallet

def activateWallet (privateKey : Text) (listing : List Text) (salt : Bytes) (writing : Writing)
    (now : ℚ) : ManagerM Sealed SimpleWallet := do
  let normalizedKey ← raising (normalizePrivateKeyHex L privateKey)
  let wallet ← findOrImport L normalizedKey listing salt writing now
  modify ({ · with activeWallet := some wallet })
  unlockFor L (← get).defaultUnlockTimeoutSecs normalizedKey now
  return wallet

def isWatchOnlyXpub (wallet : SimpleWallet) : Bool :=
  L.lower wallet.walletType = "watch_only_xpub".toList

/-- The next address of a wallet, still under an identity of its own. -/
def derivedFrom (wallet : SimpleWallet) (now : ℚ) : Except PyError SimpleWallet :=
  if wallet.mnemonic = [] then
    if isWatchOnlyXpub L wallet then
      SimpleWallet.fromXpub L wallet.xpub wallet.network (wallet.externalIndex + 1) wallet.label now
    else .error (.valueError "Deterministic wallet missing mnemonic")
  else
    SimpleWallet.fromMnemonic L wallet.mnemonic wallet.network (wallet.externalIndex + 1)
      wallet.account wallet.internalIndex now

def withIdentityOf (wallet derived : SimpleWallet) : SimpleWallet :=
  let seen := wallet.trackedAddresses
  let seen :=
    if wallet.address ≠ [] ∧ wallet.address ∉ seen then seen ++ [wallet.address] else seen
  let seen := if derived.address ∉ seen then seen ++ [derived.address] else seen
  { derived with
    walletId := wallet.toRecord.walletId
    createdAt := wallet.createdAt
    trackedAddresses := seen }

def deriveNewAddress (salt : Bytes) (writing : Writing) (now : ℚ) :
    ManagerM Sealed (Option SimpleWallet) := do
  match (← get).activeWallet with
  | none => return none
  | some wallet =>
    if L.lower wallet.walletType ≠ "deterministic".toList ∧ !isWatchOnlyXpub L wallet then
      return some wallet
    else
      let derived ← raising (derivedFrom L wallet now)
      let derived := withIdentityOf wallet derived
      modify ({ · with activeWallet := some derived })
      if derived.privateKeyHex ≠ [] then
        unlockFor L (← get).defaultUnlockTimeoutSecs derived.privateKeyHex now
      else lockWallet
      saveWallet L derived salt writing
      return some derived

def importXpubWatchOnly (xpub label : Text) (salt : Bytes) (writing : Writing) (now : ℚ) :
    ManagerM Sealed SimpleWallet := do
  let wallet ← raising (SimpleWallet.fromXpub L xpub (← get).network 0 label now)
  saveWallet L wallet salt writing
  modify ({ · with activeWallet := some wallet })
  lockWallet
  return wallet

/-- The record in the file of the active wallet; a plaintext file has the wrong format. -/
def readActive (m : SimpleWalletManager Sealed) (active : SimpleWallet) (passphrase : Text) :
    Option SimpleWallet := do
  match ← m.files.get? (stripText active.toRecord.walletId) with
  | .encrypted payload => L.decrypt passphrase payload
  | _ => none

def walletPassphrase (passphrase : Text) (timeoutSecs : ℤ) (now : ℚ) : ManagerM Sealed Bool := do
  match (← get).activeWallet with
  | none => return false
  | some active =>
    if passphrase = [] ∨ timeoutSecs ≤ 0 then return false
    else
      match readActive L (← get) active passphrase with
      | none => return false
      | some wallet =>
        if wallet.address ≠ active.address then return false
        else
          modify ({ · with activeWallet := some wallet, passphrase })
          if wallet.privateKeyHex = [] then
            lockWallet
            return false
          else
            unlockFor L timeoutSecs wallet.privateKeyHex now
            return true

/-- `get_active_private_key`, with `_auto_lock_if_needed`. -/
def getActivePrivateKey (now : ℚ) : ManagerM Sealed (Option Text) := do
  let m ← get
  if m.activePrivateKey.isSome ∧ m.unlockedUntil ≤ now then lockWallet
  return (← get).activePrivateKey

/-- A manager that was just built over a directory. -/
def opened (network : Network) (files : KeyedRows Text (WalletFile Sealed)) (passphrase : Text)
    (defaultUnlockTimeoutSecs : ℕ) : SimpleWalletManager Sealed :=
  { network, files, activeWallet := none, activePrivateKey := none
    defaultUnlockTimeoutSecs := max 1 defaultUnlockTimeoutSecs, unlockedUntil := 0, passphrase }

end SimpleWalletManager

inductive WalletCall
  | createWallet (mnemonic : Text) (salt : Bytes) (writing : Writing) (now : ℚ)
  | activateWallet (privateKey : Text) (listing : List Text) (salt : Bytes) (writing : Writing)
      (now : ℚ)
  | deriveNewAddress (salt : Bytes) (writing : Writing) (now : ℚ)
  | importXpubWatchOnly (xpub label : Text) (salt : Bytes) (writing : Writing) (now : ℚ)
  | lockWallet
  | walletPassphrase (passphrase : Text) (timeoutSecs : ℤ) (now : ℚ)
  | getActivePrivateKey (now : ℚ)
  /-- The node is started again on the same directory. -/
  | reopen (passphrase : Text) (defaultUnlockTimeoutSecs : ℕ)

namespace WalletCall
open SimpleWalletManager
variable {Sealed : Type} (L : WalletLib Sealed)

/-- The manager after a call, whether the call returned or raised. -/
def stateAfter {α : Type} (x : ManagerM Sealed α) (m : SimpleWalletManager Sealed) :
    SimpleWalletManager Sealed :=
  match x m with
  | .ok _ m' => m'
  | .error _ m' => m'

def after : WalletCall → SimpleWalletManager Sealed → SimpleWalletManager Sealed
  | .createWallet mnemonic salt writing now =>
    stateAfter (SimpleWalletManager.createWallet L mnemonic salt writing now)
  | .activateWallet privateKey listing salt writing now =>
    stateAfter (SimpleWalletManager.activateWallet L privateKey listing salt writing now)
  | .deriveNewAddress salt writing now =>
    stateAfter (SimpleWalletManager.deriveNewAddress L salt writing now)
  | .importXpubWatchOnly xpub label salt writing now =>
    stateAfter (SimpleWalletManager.importXpubWatchOnly L xpub label salt writing now)
  | .lockWallet => stateAfter SimpleWalletManager.lockWallet
  | .walletPassphrase passphrase timeoutSecs now =>
    stateAfter (SimpleWalletManager.walletPassphrase L passphrase timeoutSecs now)
  | .getActivePrivateKey now => stateAfter (SimpleWalletManager.getActivePrivateKey now)
  | .reopen passphrase timeout => fun m => opened m.network m.files passphrase timeout

/-- A new wallet that is stored has the public key of the active one. -/
def Safe (m : SimpleWalletManager Sealed) : WalletCall → Prop
  | .createWallet mnemonic _ writing now => writing = .done →
    ∀ wallet, SimpleWallet.create L m.network mnemonic now = .ok wallet →
      ∃ active, m.activeWallet = some active ∧ active.publicKeyHex = wallet.publicKeyHex
  | _ => True

end WalletCall

namespace SimpleWalletManager
variable {Sealed : Type} (L : WalletLib Sealed)

/-- An unlocked key is that of the active wallet. -/
def KeyMatches (m : SimpleWalletManager Sealed) : Prop :=
  ∀ key, m.activePrivateKey = some key → ∃ wallet, m.activeWallet = some wallet ∧
    wallet.publicKeyHex = PrivateKey.publicKeyHex L (hexValue key)

/-- The keys in each file belong together. -/
def FilesMatch (m : SimpleWalletManager Sealed) : Prop :=
  ∀ name file passphrase record, m.files.get? name = some file →
    tryDecode L passphrase file = some record → record.KeyPair L

structure Kept (m : SimpleWalletManager Sealed) : Prop where
  key : m.KeyMatches L
  files : m.FilesMatch L

section frame
variable {L} {m : SimpleWalletManager Sealed} {wallet : SimpleWallet}

lemma bind_apply {α β : Type} (x : ManagerM Sealed α) (f : α → ManagerM Sealed β)
    (m : SimpleWalletManager Sealed) :
    (x >>= f) m = match x m with
      | .ok a m' => f a m'
      | .error e m' => .error e m' := by
  simp only [bind, EStateM.bind]
  cases x m <;> rfl

lemma get_apply (m : SimpleWalletManager Sealed) : (get : ManagerM Sealed _) m = .ok m m := rfl

lemma modify_apply (f : SimpleWalletManager Sealed → SimpleWalletManager Sealed)
    (m : SimpleWalletManager Sealed) : (modify f : ManagerM Sealed Unit) m = .ok () (f m) := rfl

lemma lockWallet_apply (m : SimpleWalletManager Sealed) :
    lockWallet m = .ok () { m with activePrivateKey := none, unlockedUntil := 0 } := rfl

lemma raising_ok {α : Type} (a : α) (m : SimpleWalletManager Sealed) :
    (raising (.ok a) : ManagerM Sealed α) m = .ok a m := rfl

lemma raising_error {α : Type} (e : PyError) (m : SimpleWalletManager Sealed) :
    (raising (.error e) : ManagerM Sealed α) m = .error e m := rfl

lemma unlockFor_apply {text key : Text} (h : normalizePrivateKeyHex L text = .ok key) (timeout : ℤ)
    (now : ℚ) (m : SimpleWalletManager Sealed) :
    unlockFor L timeout text now m =
      .ok () { m with activePrivateKey := some key, unlockedUntil := now + max 1 timeout } := by
  rw [unlockFor, h, bind_apply, raising_ok]
  rfl

/-- Every private key of a wallet that can be used at all belongs to its public key. -/
lemma publicKeyHex_eq (hlib : L.Lawful) (hpair : wallet.KeyPair L) {key : Text}
    (hkey : normalizePrivateKeyHex L wallet.privateKeyHex = .ok key) :
    wallet.publicKeyHex = PrivateKey.publicKeyHex L (hexValue key) := by
  have hne : wallet.privateKeyHex ≠ [] := by
    intro hnil
    have hlower : L.lower [] = [] := hlib.lower_hex [] (by simp)
    simp [normalizePrivateKeyHex, hnil, stripText, hlower] at hkey
  obtain ⟨key', hkey', hpublic⟩ := hpair hne
  rw [hkey] at hkey'
  cases hkey'
  exact hpublic

/-- A file that is written holds the keys of one wallet, or cannot be read. -/
lemma FilesMatch.put (hlib : L.Lawful) (hfiles : m.FilesMatch L) (hwallet : wallet.KeyPair L)
    (name : Text) (salt : Bytes) {file : WalletFile Sealed}
    (hfile : file = .encrypted (L.encrypt m.passphrase wallet.toRecord salt) ∨ file = .unreadable) :
    FilesMatch L { m with files := m.files.put name file } := by
  intro name' file' passphrase record hget hdecode
  simp only [KeyedRows.get?_put] at hget
  split_ifs at hget with hname
  · cases hget
    rcases hfile with rfl | rfl
    · rw [hlib.decrypt_encrypt _ _ _ _ _ hdecode]
      exact hwallet
    · cases hdecode
  · exact hfiles name' file' passphrase record hget hdecode

/-- Saving a wallet changes the files only. -/
lemma saveWallet_cases (hlib : L.Lawful) (hfiles : m.FilesMatch L) (hwallet : wallet.KeyPair L)
    (salt : Bytes) (writing : Writing) :
    ∃ files, FilesMatch L { m with files } ∧
      (writing = .done ∧ saveWallet L wallet salt writing m = .ok () { m with files } ∨
        writing ≠ .done ∧ ∃ e, saveWallet L wallet salt writing m = .error e { m with files }) := by
  cases writing with
  | done =>
    exact ⟨_, hfiles.put hlib hwallet _ salt (Or.inl rfl), Or.inl ⟨rfl, rfl⟩⟩
  | refused => exact ⟨m.files, hfiles, Or.inr ⟨by simp, _, rfl⟩⟩
  | cutShort =>
    exact ⟨_, hfiles.put hlib hwallet _ salt (Or.inr rfl), Or.inr ⟨by simp, _, rfl⟩⟩

lemma keyMatches_locked (h : m.activePrivateKey = none) : m.KeyMatches L := by
  intro key hkey
  rw [h] at hkey
  cases hkey

end frame

end SimpleWalletManager

/-! One call. -/

namespace WalletCall
open SimpleWalletManager
variable {Sealed : Type} {L : WalletLib Sealed} {m : SimpleWalletManager Sealed}

lemma stateAfter_ok {α : Type} {x : ManagerM Sealed α} {a : α} {m' : SimpleWalletManager Sealed}
    (h : x m = .ok a m') : stateAfter x m = m' := by rw [stateAfter, h]

lemma stateAfter_error {α : Type} {x : ManagerM Sealed α} {e : PyError}
    {m' : SimpleWalletManager Sealed} (h : x m = .error e m') : stateAfter x m = m' := by
  rw [stateAfter, h]

lemma createWallet_steps (hlib : L.Lawful) (h : m.Kept L) (mnemonic : Text) (salt : Bytes)
    (writing : Writing) (now : ℚ) :
    (stateAfter (SimpleWalletManager.createWallet L mnemonic salt writing now) m).FilesMatch L ∧
      ((stateAfter (SimpleWalletManager.createWallet L mnemonic salt writing now) m).KeyMatches L ↔
        Safe L m (.createWallet mnemonic salt writing now)) := by
  cases hcreate : SimpleWallet.create L m.network mnemonic now with
  | error e =>
    have hrun : SimpleWalletManager.createWallet L mnemonic salt writing now m = .error e m := by
      simp only [SimpleWalletManager.createWallet, bind_apply, get_apply, hcreate, raising_error]
    rw [stateAfter_error hrun]
    refine ⟨h.files, iff_of_true h.key ?_⟩
    intro _ wallet hwallet
    rw [hcreate] at hwallet
    cases hwallet
  | ok wallet =>
    obtain ⟨hpair, hhex⟩ := keyPair_fromMnemonic hlib hcreate
    have hnormal := hhex.normalize hlib
    obtain ⟨files, hfiles, hsave⟩ := saveWallet_cases hlib h.files hpair salt writing
    rcases hsave with ⟨hdone, hsave⟩ | ⟨hwriting, e, hsave⟩
    · have hrun : SimpleWalletManager.createWallet L mnemonic salt writing now m = .ok wallet
          { m with
            files, activePrivateKey := some wallet.privateKeyHex
            unlockedUntil := now + (max 1 (m.defaultUnlockTimeoutSecs : ℤ) : ℤ) } := by
        simp only [SimpleWalletManager.createWallet, bind_apply, get_apply, hcreate, raising_ok, hsave,
          unlockFor_apply hnormal]
        rfl
      rw [stateAfter_ok hrun]
      refine ⟨hfiles, ?_⟩
      have hpublic := publicKeyHex_eq hlib hpair hnormal
      constructor
      · intro hmatch _ wallet' hwallet'
        rw [hcreate] at hwallet'
        cases hwallet'
        rw [hpublic]
        exact hmatch _ rfl
      · intro hsafe key hkey
        cases hkey
        rw [← hpublic]
        exact hsafe hdone wallet hcreate
    · have hrun : SimpleWalletManager.createWallet L mnemonic salt writing now m =
          .error e { m with files } := by
        simp only [SimpleWalletManager.createWallet, bind_apply, get_apply, hcreate, raising_ok, hsave]
      rw [stateAfter_error hrun]
      exact ⟨hfiles, iff_of_true h.key fun hdone => absurd hdone hwriting⟩

lemma findOrImport_cases (hlib : L.Lawful) (h : m.Kept L) {key : Text} (hkey : Hex64 key)
    (listing : List Text) (salt : Bytes) (writing : Writing) (now : ℚ) :
    ∃ files, FilesMatch L { m with files } ∧
      ((∃ wallet, findOrImport L key listing salt writing now m = .ok wallet { m with files } ∧
          wallet.publicKeyHex = PrivateKey.publicKeyHex L (hexValue key)) ∨
        ∃ e, findOrImport L key listing salt writing now m = .error e { m with files }) := by
  have hnormal := hkey.normalize hlib
  have hload : ∃ found, m.loadWalletByPrivateKey L key listing = .ok found ∧
      ∀ wallet, found = some wallet →
        wallet.publicKeyHex = PrivateKey.publicKeyHex L (hexValue key) := by
    refine ⟨_, by rw [loadWalletByPrivateKey, hnormal]; rfl, ?_⟩
    intro wallet hwallet
    obtain ⟨name, -, hname⟩ := List.exists_of_findSome?_eq_some hwallet
    obtain ⟨file, hfile, hname⟩ := Option.bind_eq_some_iff.1 hname
    obtain ⟨record, hrecord, hname⟩ := Option.bind_eq_some_iff.1 hname
    split_ifs at hname with htarget
    cases hname
    exact publicKeyHex_eq hlib (h.files name file m.passphrase wallet hfile hrecord) htarget
  obtain ⟨found, hload, hfound⟩ := hload
  cases found with
  | some wallet =>
    refine ⟨m.files, h.files, Or.inl ⟨wallet, ?_, hfound wallet rfl⟩⟩
    simp only [findOrImport, bind_apply, get_apply, hload, raising_ok]
    rfl
  | none =>
    cases himport : SimpleWallet.fromPrivateKey L key m.network now with
    | error e =>
      refine ⟨m.files, h.files, Or.inr ⟨e, ?_⟩⟩
      simp only [findOrImport, bind_apply, get_apply, hload, raising_ok, himport, raising_error]
    | ok wallet =>
      obtain ⟨hpair, hprivate⟩ := keyPair_fromPrivateKey hlib himport
      obtain ⟨files, hfiles, hsave⟩ := saveWallet_cases hlib h.files hpair salt writing
      refine ⟨files, hfiles, ?_⟩
      rcases hsave with ⟨-, hsave⟩ | ⟨-, e, hsave⟩
      · left
        refine ⟨wallet, ?_, ?_⟩
        · simp only [findOrImport, bind_apply, get_apply, hload, raising_ok, himport, hsave]
          rfl
        · rw [hnormal] at hprivate
          cases hprivate
          exact publicKeyHex_eq hlib hpair hnormal
      · right
        refine ⟨e, ?_⟩
        simp only [findOrImport, bind_apply, get_apply, hload, raising_ok, himport, hsave]

lemma activateWallet_kept (hlib : L.Lawful) (h : m.Kept L) (privateKey : Text) (listing : List Text)
    (salt : Bytes) (writing : Writing) (now : ℚ) :
    (stateAfter (SimpleWalletManager.activateWallet L privateKey listing salt writing now) m).Kept L := by
  cases hkey : normalizePrivateKeyHex L privateKey with
  | error e =>
    have hrun : SimpleWalletManager.activateWallet L privateKey listing salt writing now m =
        .error e m := by
      simp only [SimpleWalletManager.activateWallet, bind_apply, hkey, raising_error]
    rw [stateAfter_error hrun]
    exact h
  | ok key =>
    have hhex := hex64_of_normalize hkey
    obtain ⟨files, hfiles, hfound⟩ := findOrImport_cases hlib h hhex listing salt writing now
    rcases hfound with ⟨wallet, hwallet, hpublic⟩ | ⟨e, hwallet⟩
    · have hrun : SimpleWalletManager.activateWallet L privateKey listing salt writing now m =
          .ok wallet { m with
            files, activeWallet := some wallet, activePrivateKey := some key
            unlockedUntil := now + (max 1 (m.defaultUnlockTimeoutSecs : ℤ) : ℤ) } := by
        simp only [SimpleWalletManager.activateWallet, bind_apply, get_apply, modify_apply, hkey,
          raising_ok, hwallet, unlockFor_apply (hhex.normalize hlib)]
        rfl
      rw [stateAfter_ok hrun]
      refine ⟨?_, hfiles⟩
      intro key' hkey'
      cases hkey'
      exact ⟨wallet, rfl, hpublic⟩
    · have hrun : SimpleWalletManager.activateWallet L privateKey listing salt writing now m =
          .error e { m with files } := by
        simp only [SimpleWalletManager.activateWallet, bind_apply, hkey, raising_ok, hwallet]
      rw [stateAfter_error hrun]
      exact ⟨h.key, hfiles⟩

/-- A derived wallet has a usable key of its own, or none. -/
lemma derivedFrom_cases (hlib : L.Lawful) {wallet derived : SimpleWallet} {now : ℚ}
    (h : derivedFrom L wallet now = .ok derived) :
    derived.KeyPair L ∧ (derived.privateKeyHex ≠ [] → Hex64 derived.privateKeyHex) := by
  unfold derivedFrom at h
  split_ifs at h
  · have hnil := privateKeyHex_fromXpub h
    exact ⟨fun hne => absurd hnil hne, fun hne => absurd hnil hne⟩
  · obtain ⟨hpair, hhex⟩ := keyPair_fromMnemonic hlib h
    exact ⟨hpair, fun _ => hhex⟩

/-- The wallet takes its place before it is saved, with its key or locked. -/
lemma deriveNewAddress_kept (hlib : L.Lawful) (h : m.Kept L) (salt : Bytes) (writing : Writing)
    (now : ℚ) : (stateAfter (SimpleWalletManager.deriveNewAddress L salt writing now) m).Kept L := by
  cases hactive : m.activeWallet with
  | none =>
    have hrun : SimpleWalletManager.deriveNewAddress L salt writing now m = .ok none m := by
      simp only [SimpleWalletManager.deriveNewAddress, bind_apply, get_apply, hactive]
      rfl
    rw [stateAfter_ok hrun]
    exact h
  | some wallet =>
    by_cases htype : L.lower wallet.walletType ≠ "deterministic".toList ∧ !isWatchOnlyXpub L wallet
    · have hrun : SimpleWalletManager.deriveNewAddress L salt writing now m = .ok (some wallet) m := by
        simp only [SimpleWalletManager.deriveNewAddress, bind_apply, get_apply, hactive, if_pos htype]
        rfl
      rw [stateAfter_ok hrun]
      exact h
    · cases hderived : derivedFrom L wallet now with
      | error e =>
        have hrun : SimpleWalletManager.deriveNewAddress L salt writing now m = .error e m := by
          simp only [SimpleWalletManager.deriveNewAddress, bind_apply, get_apply, hactive,
            if_neg htype, hderived, raising_error]
        rw [stateAfter_error hrun]
        exact h
      | ok derived =>
        obtain ⟨hpair, hhex⟩ := derivedFrom_cases hlib hderived
        have hpair' : (withIdentityOf wallet derived).KeyPair L := hpair
        -- The state in which the wallet is saved: the invariant is back already.
        have hsaved : ∃ m', m'.Kept L ∧
            SimpleWalletManager.deriveNewAddress L salt writing now m =
              (do
                saveWallet L (withIdentityOf wallet derived) salt writing
                return some (withIdentityOf wallet derived)) m' := by
          by_cases hne : (withIdentityOf wallet derived).privateKeyHex ≠ []
          · have hnormal : normalizePrivateKeyHex L (withIdentityOf wallet derived).privateKeyHex =
                .ok (withIdentityOf wallet derived).privateKeyHex := (hhex hne).normalize hlib
            refine ⟨{ m with
              activeWallet := some (withIdentityOf wallet derived)
              activePrivateKey := some (withIdentityOf wallet derived).privateKeyHex
              unlockedUntil := now + (max 1 (m.defaultUnlockTimeoutSecs : ℤ) : ℤ) }, ⟨?_, h.files⟩, ?_⟩
            · intro key hkey
              cases hkey
              exact ⟨_, rfl, publicKeyHex_eq hlib hpair' hnormal⟩
            · simp only [SimpleWalletManager.deriveNewAddress, bind_apply, get_apply, modify_apply,
                hactive, if_neg htype, hderived, raising_ok, if_pos hne, unlockFor_apply hnormal]
          · refine ⟨{ m with
              activeWallet := some (withIdentityOf wallet derived)
              activePrivateKey := none
              unlockedUntil := 0 }, ⟨keyMatches_locked rfl, h.files⟩, ?_⟩
            simp only [SimpleWalletManager.deriveNewAddress, bind_apply, get_apply, modify_apply,
              hactive, if_neg htype, hderived, raising_ok, if_neg hne, lockWallet_apply]
        obtain ⟨m', hkept, hrun⟩ := hsaved
        obtain ⟨files, hfiles, hsave⟩ := saveWallet_cases hlib hkept.files hpair' salt writing
        rcases hsave with ⟨-, hsave⟩ | ⟨-, e, hsave⟩
        · rw [bind_apply, hsave] at hrun
          rw [stateAfter_ok hrun]
          exact ⟨hkept.key, hfiles⟩
        · rw [bind_apply, hsave] at hrun
          rw [stateAfter_error hrun]
          exact ⟨hkept.key, hfiles⟩

lemma importXpubWatchOnly_kept (hlib : L.Lawful) (h : m.Kept L) (xpub label : Text) (salt : Bytes)
    (writing : Writing) (now : ℚ) :
    (stateAfter (SimpleWalletManager.importXpubWatchOnly L xpub label salt writing now) m).Kept L := by
  cases hxpub : SimpleWallet.fromXpub L xpub m.network 0 label now with
  | error e =>
    have hrun : SimpleWalletManager.importXpubWatchOnly L xpub label salt writing now m =
        .error e m := by
      simp only [SimpleWalletManager.importXpubWatchOnly, bind_apply, get_apply, hxpub, raising_error]
    rw [stateAfter_error hrun]
    exact h
  | ok wallet =>
    have hpair : wallet.KeyPair L := fun hne => absurd (privateKeyHex_fromXpub hxpub) hne
    obtain ⟨files, hfiles, hsave⟩ := saveWallet_cases hlib h.files hpair salt writing
    rcases hsave with ⟨-, hsave⟩ | ⟨-, e, hsave⟩
    · have hrun : SimpleWalletManager.importXpubWatchOnly L xpub label salt writing now m =
          .ok wallet { m with
            files, activeWallet := some wallet, activePrivateKey := none, unlockedUntil := 0 } := by
        simp only [SimpleWalletManager.importXpubWatchOnly, bind_apply, get_apply, modify_apply, hxpub,
          raising_ok, hsave, lockWallet_apply]
        rfl
      rw [stateAfter_ok hrun]
      exact ⟨keyMatches_locked rfl, hfiles⟩
    · have hrun : SimpleWalletManager.importXpubWatchOnly L xpub label salt writing now m =
          .error e { m with files } := by
        simp only [SimpleWalletManager.importXpubWatchOnly, bind_apply, get_apply, hxpub, raising_ok,
          hsave]
      rw [stateAfter_error hrun]
      exact ⟨h.key, hfiles⟩

/-- The key and the wallet are read from one record. -/
lemma walletPassphrase_kept (h : m.Kept L) (passphrase : Text) (timeoutSecs : ℤ) (now : ℚ) :
    (stateAfter (SimpleWalletManager.walletPassphrase L passphrase timeoutSecs now) m).Kept L := by
  cases hactive : m.activeWallet with
  | none =>
    have hrun : SimpleWalletManager.walletPassphrase L passphrase timeoutSecs now m = .ok false m := by
      simp only [SimpleWalletManager.walletPassphrase, bind_apply, get_apply, hactive]
      rfl
    rw [stateAfter_ok hrun]
    exact h
  | some active =>
    by_cases hinput : passphrase = [] ∨ timeoutSecs ≤ 0
    · have hrun : SimpleWalletManager.walletPassphrase L passphrase timeoutSecs now m = .ok false m := by
        simp only [SimpleWalletManager.walletPassphrase, bind_apply, get_apply, hactive, if_pos hinput]
        rfl
      rw [stateAfter_ok hrun]
      exact h
    · cases hread : m.readActive L active passphrase with
      | none =>
        have hrun : SimpleWalletManager.walletPassphrase L passphrase timeoutSecs now m =
            .ok false m := by
          simp only [SimpleWalletManager.walletPassphrase, bind_apply, get_apply, hactive,
            if_neg hinput, hread]
          rfl
        rw [stateAfter_ok hrun]
        exact h
      | some wallet =>
        have hpair : wallet.KeyPair L := by
          obtain ⟨file, hfile, hdecrypt⟩ := Option.bind_eq_some_iff.1 hread
          cases file with
          | plaintext record => cases hdecrypt
          | encrypted payload => exact h.files _ _ passphrase wallet hfile hdecrypt
          | unreadable => cases hdecrypt
        by_cases haddress : wallet.address ≠ active.address
        · have hrun : SimpleWalletManager.walletPassphrase L passphrase timeoutSecs now m =
              .ok false m := by
            simp only [SimpleWalletManager.walletPassphrase, bind_apply, get_apply, hactive,
              if_neg hinput, hread, if_pos haddress]
            rfl
          rw [stateAfter_ok hrun]
          exact h
        · by_cases hnil : wallet.privateKeyHex = []
          · have hrun : SimpleWalletManager.walletPassphrase L passphrase timeoutSecs now m =
                .ok false { m with
                  activeWallet := some wallet, passphrase, activePrivateKey := none
                  unlockedUntil := 0 } := by
              simp only [SimpleWalletManager.walletPassphrase, bind_apply, get_apply, modify_apply,
                hactive, if_neg hinput, hread, if_neg haddress, if_pos hnil, lockWallet_apply]
              rfl
            rw [stateAfter_ok hrun]
            exact ⟨keyMatches_locked rfl, h.files⟩
          · obtain ⟨key, hnormal, hpublic⟩ := hpair hnil
            have hrun : SimpleWalletManager.walletPassphrase L passphrase timeoutSecs now m =
                .ok true { m with
                  activeWallet := some wallet, passphrase, activePrivateKey := some key
                  unlockedUntil := now + (max 1 timeoutSecs : ℤ) } := by
              simp only [SimpleWalletManager.walletPassphrase, bind_apply, get_apply, modify_apply,
                hactive, if_neg hinput, hread, if_neg haddress, if_neg hnil, unlockFor_apply hnormal]
              rfl
            rw [stateAfter_ok hrun]
            refine ⟨?_, h.files⟩
            intro key' hkey'
            cases hkey'
            exact ⟨wallet, rfl, hpublic⟩

lemma getActivePrivateKey_kept (h : m.Kept L) (now : ℚ) :
    (stateAfter (SimpleWalletManager.getActivePrivateKey now) m).Kept L := by
  by_cases hexpired : m.activePrivateKey.isSome ∧ m.unlockedUntil ≤ now
  · have hrun : SimpleWalletManager.getActivePrivateKey now m =
        .ok none { m with activePrivateKey := none, unlockedUntil := 0 } := by
      simp only [SimpleWalletManager.getActivePrivateKey, bind_apply, get_apply, if_pos hexpired,
        lockWallet_apply]
      rfl
    rw [stateAfter_ok hrun]
    exact ⟨keyMatches_locked rfl, h.files⟩
  · have hrun : SimpleWalletManager.getActivePrivateKey now m = .ok m.activePrivateKey m := by
      simp only [SimpleWalletManager.getActivePrivateKey, bind_apply, get_apply, if_neg hexpired]
      rfl
    rw [stateAfter_ok hrun]
    exact h

lemma after_steps (hlib : L.Lawful) (h : m.Kept L) (call : WalletCall) :
    (call.after L m).FilesMatch L ∧ ((call.after L m).KeyMatches L ↔ call.Safe L m) := by
  have hkept {m' : SimpleWalletManager Sealed} (h : m'.Kept L) :
      m'.FilesMatch L ∧ (m'.KeyMatches L ↔ True) := ⟨h.files, iff_of_true h.key trivial⟩
  cases call with
  | createWallet mnemonic salt writing now => exact createWallet_steps hlib h mnemonic salt writing now
  | activateWallet privateKey listing salt writing now =>
    exact hkept (activateWallet_kept hlib h privateKey listing salt writing now)
  | deriveNewAddress salt writing now => exact hkept (deriveNewAddress_kept hlib h salt writing now)
  | importXpubWatchOnly xpub label salt writing now =>
    exact hkept (importXpubWatchOnly_kept hlib h xpub label salt writing now)
  | lockWallet => exact hkept ⟨keyMatches_locked rfl, h.files⟩
  | walletPassphrase passphrase timeoutSecs now =>
    exact hkept (walletPassphrase_kept h passphrase timeoutSecs now)
  | getActivePrivateKey now => exact hkept (getActivePrivateKey_kept h now)
  | reopen passphrase timeout => exact hkept ⟨keyMatches_locked rfl, h.files⟩

/-- The unlocked key is that of the active wallet throughout the calls on a new manager exactly
when no stored new wallet has another public key than the active one. -/
theorem keyMatches_along_iff (hlib : L.Lawful) (calls : List WalletCall) (network : Network)
    (files : KeyedRows Text (WalletFile Sealed)) (passphrase : Text) (timeout : ℕ)
    (hfiles : (opened network files passphrase timeout).FilesMatch L) :
    Along (after L) (KeyMatches L) calls (opened network files passphrase timeout) ↔
      AllSafe (after L) (Safe L) calls (opened network files passphrase timeout) := by
  have hopened : (opened network files passphrase timeout).Kept L := ⟨keyMatches_locked rfl, hfiles⟩
  apply along_iff_allSafe_of_step (I := Kept L) (fun _ h => h.key) _ hopened
  intro m call h
  obtain ⟨hfiles', hkey⟩ := after_steps hlib h call
  exact ⟨hkey, fun hmatch => ⟨hmatch, hfiles'⟩⟩

end WalletCall

/-! The wallet of a well-known mnemonic. -/
namespace WalletExample
open WalletCall SimpleWalletManager

def mnemonic : Text := (List.replicate 11 "abandon ").flatMap String.toList ++ "about".toList

def seed : Bytes := beBytes 64
  0x5eb00bbddcf069084889a8ab9155568165f5c453ccb85e70811aaed6f6da5fc19a5ac40b389cd370d086206dec8aa6c43daea6690f20ad3d8d48b2d2ce9e38e4

/-- Keys, data and results of HMAC-SHA512. -/
def macs : List ((Bytes × Bytes) × Bytes) := [
  (("Bitcoin seed".toUTF8.toList, seed), beBytes 64
    0x1837c1be8e2995ec11cda2b066151be2cfb48adf9e47b151d46adab3a21cdf677923408dadd3c7b56eed15567707ae5e5dca089de972e07f3b860450e2a3b70e),
  ((beBytes 32 0x7923408dadd3c7b56eed15567707ae5e5dca089de972e07f3b860450e2a3b70e,
    beBytes 37 0x001837c1be8e2995ec11cda2b066151be2cfb48adf9e47b151d46adab3a21cdf678000002c), beBytes 64
    0xb50e42e12a00b9e0abc8d9a1ced0f570252afcf07ed746e16d9d3a12dcc7d88345d3b0e8206db10a08d555317c7e245c5bbd12254ce968f3c79a959d4e6af98a),
  ((beBytes 32 0x45d3b0e8206db10a08d555317c7e245c5bbd12254ce968f3c79a959d4e6af98a,
    beBytes 37 0x00cd46049fb82a4fccbd967c5234e61152f4df87d01d1ef833420814c67ee4b7ea80000000), beBytes 64
    0xda201b04dfcc2ab09c817647b280248d333901bf4ac4700aaa75f70dba60d14daf0894dc5f2d5bed0dc85b2fd2053a98575765c144e4e64126ee1009b38860b2),
  ((beBytes 32 0xaf0894dc5f2d5bed0dc85b2fd2053a98575765c144e4e64126ee1009b38860b2,
    beBytes 37 0x00a7661fa497f67a7d5a17f299e76635e16d69aca8b89ac8022cabad47690f47f680000000), beBytes 64
    0x56fe8fddc364fdd7f21baff13ba229df158ce50b0e78041b21bb33ebc06e60843da4bc190a2680111d31fadfdc905f2a7f6ce77c6f109919116f253d43445219),
  ((beBytes 32 0x3da4bc190a2680111d31fadfdc905f2a7f6ce77c6f109919116f253d43445219,
    beBytes 37 0x03774c910fcf07fa96886ea794f0d5caed9afe30b44b83f7e213bb92930e7df4bd00000000), beBytes 64
    0x8558f645527606a46f8e4da86e88e025044cc5d47480085478ddcbdb033c877ebce80dd580792cd18af542790e56aa813178dc28644bb5f03dbd44c85f2d2e7a),
  ((beBytes 32 0xbce80dd580792cd18af542790e56aa813178dc28644bb5f03dbd44c85f2d2e7a,
    beBytes 37 0x0386b865b52b753d0a84d09bc20063fab5d8453ec33c215d4019a5801c9c6438b900000000), beBytes 64
    0x5ec66cd512c0a67fe973cbc140127270a67492873cbf87d9e601675ec5a8d4bb213909708058e0ec4a99c19d8e041c014ae6c7dc21d2a1fac86772df7ca357a6)]

def points : List (ℕ × Bytes) := [
  (0xfe64af825b5b78554c33a28b23085fc082f691b3c712cc1d4e66e133297da87a,
    beBytes 33 0x03774c910fcf07fa96886ea794f0d5caed9afe30b44b83f7e213bb92930e7df4bd),
  (0x83bda5c7add17ef9bbc1f03391913fe6cc947aa18c4a343607724e815c83eeb7,
    beBytes 33 0x0386b865b52b753d0a84d09bc20063fab5d8453ec33c215d4019a5801c9c6438b9),
  (0xe284129cc0922579a535bbf4d1a3b25773090d28c909bc0fed73b5e0222cc372,
    beBytes 33 0x03aaeb52dd7494c361049de67cc680e83ebcbbbdbeb13637d92cd845f70308af5e)]

def crypto : WalletLib (Text × SimpleWallet) :=
  { Hashlib.ofDigests [
      (beBytes 33 0x03aaeb52dd7494c361049de67cc680e83ebcbbbdbeb13637d92cd845f70308af5e,
        beBytes 32 0xa41ac9373b9868ec0ac47b571ae61b5169dd2a32b52ccd668a99b95fadb86b8f),
      (beBytes 21 0x00d986ed01b7a22225a70edbf2ba7cfb63a15cb3aa,
        beBytes 32 0xa998ae69d110e6fca4d4b7652e7be3a519098830c2fc56a31428fbdca0f7eb65),
      (beBytes 32 0xa998ae69d110e6fca4d4b7652e7be3a519098830c2fc56a31428fbdca0f7eb65,
        beBytes 32 0x2b4daf193cb841bf5b60aacfc3bebcecc6c9b35ae6dc83281c4223764afb8c7c)] with
    ripemd160 := fun _ => beBytes 20 0xd986ed01b7a22225a70edbf2ba7cfb63a15cb3aa
    lower := id
    hmacSha512 := fun key data => (macs.lookup (key, data)).getD []
    mnemonicToSeed := fun _ => seed
    mnemonicFromPrivateKey := fun _ => mnemonic
    privateToPublic := fun key => (points.lookup key).getD []
    parseXpub := fun _ => .error (.valueError "Invalid xpub")
    deriveXpubExternalPubkey := fun _ _ => .error (.valueError "Invalid xpub")
    encrypt := fun passphrase wallet _ => (passphrase, wallet)
    decrypt := fun passphrase payload =>
      if payload.1 = passphrase then some payload.2 else none }

lemma crypto_lawful : crypto.Lawful where
  lower_hex _ _ := rfl
  decrypt_encrypt passphrase passphrase' wallet salt wallet' h := by
    simp only [crypto, Option.ite_none_right_eq_some, Option.some.injEq] at h
    exact h.2.symm

lemma files_match : (opened .mainnet KeyedRows.empty [] 1 : SimpleWalletManager _).FilesMatch crypto := by
  intro name file passphrase record hget
  cases hget

/-- A key that is imported, its next addresses, and the key that is locked and unlocked. -/
theorem keyMatches_along_import : Along (after crypto) (KeyMatches crypto)
    [.activateWallet "01".toList [] [] .done 0, .deriveNewAddress [] .done 1, .lockWallet,
      .walletPassphrase "secret".toList 60 2, .getActivePrivateKey 90]
    (opened .mainnet KeyedRows.empty [] 1) :=
  (keyMatches_along_iff crypto_lawful _ .mainnet KeyedRows.empty [] 1 files_match).2
    ⟨trivial, trivial, trivial, trivial, trivial, trivial⟩

/-- A wallet that is made on a new node is unlocked, and no wallet is active. -/
theorem created_wallet_is_not_active : ¬ Along (after crypto) (KeyMatches crypto)
    [.createWallet mnemonic [] .done 0] (opened .mainnet KeyedRows.empty [] 1) := by
  rintro ⟨hopened, hafter⟩
  have hmade : (SimpleWallet.create crypto .mainnet mnemonic 0).isOk := by
    decide +kernel
  obtain ⟨wallet, hwallet⟩ : ∃ wallet, SimpleWallet.create crypto .mainnet mnemonic 0 = .ok wallet := by
    cases hcreate : SimpleWallet.create crypto .mainnet mnemonic 0 with
    | error e =>
      rw [hcreate] at hmade
      cases hmade
    | ok wallet => exact ⟨wallet, rfl⟩
  have hsafe := (createWallet_steps crypto_lawful ⟨hopened, files_match⟩ mnemonic [] .done 0).2.1 hafter
  obtain ⟨active, hactive, -⟩ := hsafe rfl wallet hwallet
  cases hactive

end WalletExample

end BerzCoin
