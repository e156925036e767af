import BerzCoin.StateInvariant
import BerzCoin.WalletSpending

/-! The address of a wallet is that of its public key, in every wallet that the manager makes or
reads back, so that an unlocked key can sign for the active address. -/
namespace BerzCoin
open StateInvariant OperationRuns SimpleWalletManager

/-- A text that `PrivateKey` takes. -/
def UsableKey (key : Text) : Prop := ∃ privateKey, PrivateKey.check (hexValue key) = .ok privateKey

/-- A wallet as it is made: the address of a wallet with keys is that of its public key. -/
structure SimpleWallet.Genuine {Sealed : Type} (L : WalletLib Sealed) (wallet : SimpleWallet) :
    Prop where
  address : wallet.watchOnly = false → ∃ publicKey,
    wallet.publicKeyHex = hexOfBytes publicKey ∧ KeyOf L publicKey wallet.address
  usable : ∀ key, normalizePrivateKeyHex L wallet.privateKeyHex = .ok key → UsableKey key

section making
variable {Sealed : Type} {L : WalletLib Sealed} {wallet : SimpleWallet} {network : Network}
  {createdAt : ℚ}

lemma hexDigit_roundtrip {n : ℕ} (h : n < 16) :
    (hexDigit n).toLower ∈ HEX_DIGITS ∧ HEX_DIGITS.idxOf (hexDigit n).toLower = n := by
  have hall : ∀ n < 16, (hexDigit n).toLower ∈ HEX_DIGITS ∧
      HEX_DIGITS.idxOf (hexDigit n).toLower = n := by
    decide
  exact hall n h

lemma bytesFromHex_hexOfBytes (data : Bytes) : bytesFromHex (hexOfBytes data) = .ok data := by
  rw [hexOfBytes, hex, String.toList_ofList]
  induction data with
  | nil => rfl
  | cons b data ih =>
    have hhigh := hexDigit_roundtrip (n := b.toNat / 16) (by have := b.toNat_lt; omega)
    have hlow := hexDigit_roundtrip (n := b.toNat % 16) (by omega)
    have hbyte : UInt8.ofNat (16 * (b.toNat / 16) + b.toNat % 16) = b := by
      rw [Nat.div_add_mod]
      exact UInt8.ofNat_toNat
    simp only [List.flatMap_cons, List.cons_append, List.nil_append, bytesFromHex, hhigh.2, hlow.2,
      hbyte, ih]
    simp [hhigh.1, hlow.1]

lemma genuine_fromMnemonic (hlib : L.Lawful) {mnemonic : Text} {externalIndex account internalIndex : ℕ}
    (h : SimpleWallet.fromMnemonic L mnemonic network externalIndex account internalIndex createdAt =
      .ok wallet) : wallet.Genuine L := by
  obtain ⟨derived, -, h⟩ := except_bind_eq_ok h
  obtain ⟨key, hkey, h⟩ := except_bind_eq_ok h
  obtain ⟨address, haddress, h⟩ := except_bind_eq_ok h
  have hprivate : wallet.privateKeyHex = PrivateKey.toHex key := by
    rw [← Except.ok.inj h]
  have hpublic : wallet.publicKeyHex = hexOfBytes (L.privateToPublic key) := by
    rw [← Except.ok.inj h]
    rfl
  have hsame : wallet.address = address := by
    rw [← Except.ok.inj h]
  refine ⟨fun _ => ⟨L.privateToPublic key, hpublic, network, hsame ▸ haddress⟩, ?_⟩
  intro text htext
  rw [hprivate, (hex64_toHex key).normalize hlib] at htext
  obtain ⟨hk, hlt⟩ := check_ok hkey
  rw [← hk] at hkey hlt
  refine ⟨key, ?_⟩
  rw [← Except.ok.inj htext, PrivateKey.toHex, hexValue_hexText hlt]
  exact hkey

lemma genuine_fromPrivateKey (hlib : L.Lawful) {text : Text}
    (h : SimpleWallet.fromPrivateKey L text network createdAt = .ok wallet) : wallet.Genuine L := by
  obtain ⟨normalizedKey, hnormal, h⟩ := except_bind_eq_ok h
  obtain ⟨key, hkey, h⟩ := except_bind_eq_ok h
  obtain ⟨address, haddress, h⟩ := except_bind_eq_ok h
  cases h
  refine ⟨fun _ => ⟨L.privateToPublic key, rfl, network, haddress⟩, ?_⟩
  intro text' htext'
  rw [(hex64_of_normalize hnormal).normalize hlib] at htext'
  cases htext'
  exact ⟨key, hkey⟩

lemma normalize_nil (hlib : L.Lawful) (key : Text) : normalizePrivateKeyHex L [] ≠ .ok key := by
  have hlower : L.lower [] = [] := hlib.lower_hex [] (by simp)
  simp [normalizePrivateKeyHex, stripText, hlower]

lemma genuine_fromXpub (hlib : L.Lawful) {xpub label : Text} {externalIndex : ℕ}
    (h : SimpleWallet.fromXpub L xpub network externalIndex label createdAt = .ok wallet) :
    wallet.Genuine L := by
  have hnil := privateKeyHex_fromXpub h
  obtain ⟨nodeNet, -, h⟩ := except_bind_eq_ok h
  obtain ⟨-, -, h⟩ := except_bind_eq_ok h
  obtain ⟨pubkeyBytes, -, h⟩ := except_bind_eq_ok h
  obtain ⟨address, -, h⟩ := except_bind_eq_ok h
  refine ⟨?_, ?_⟩
  · intro hwatch
    rw [← Except.ok.inj h] at hwatch
    cases hwatch
  intro key hkey
  rw [hnil] at hkey
  exact absurd hkey (normalize_nil hlib key)

end making

namespace SimpleWalletManager
variable {Sealed : Type} (L : WalletLib Sealed)

/-- The wallets of the manager are as they were made, and its key can be used. -/
structure Sound (m : SimpleWalletManager Sealed) : Prop where
  active : ∀ wallet, m.activeWallet = some wallet → wallet.Genuine L
  key : ∀ key, m.activePrivateKey = some key → UsableKey key
  files : ∀ name file passphrase record, m.files.get? name = some file →
    tryDecode L passphrase file = some record → record.Genuine L

section calls
variable {L} {wallet : SimpleWallet} {salt : Bytes} {writing : Writing} {now : ℚ}

lemma keeps_raising {α : Type} {I : SimpleWalletManager Sealed → Prop} {Q : α → Prop}
    {x : Except PyError α} (h : ∀ a, x = .ok a → Q a) : Keeps I (raising x : ManagerM Sealed α) Q := by
  cases x with
  | error e => exact keeps_throw
  | ok a => exact keeps_pure (h a rfl)

lemma Sound.put (hlib : L.Lawful) {m : SimpleWalletManager Sealed} (h : m.Sound L)
    (hwallet : wallet.Genuine L) (name : Text) (salt : Bytes) {file : WalletFile Sealed}
    (hfile : file = .encrypted (L.encrypt m.passphrase wallet.toRecord salt) ∨ file = .unreadable) :
    Sound L { m with files := m.files.put name file } := by
  refine ⟨h.active, h.key, ?_⟩
  intro name' file' passphrase record hget hdecode
  simp only [KeyedRows.get?_put] at hget
  split_ifs at hget with hname
  · cases hget
    rcases hfile with rfl | rfl
    · rw [hlib.decrypt_encrypt _ _ _ _ _ hdecode]
      exact ⟨hwallet.address, hwallet.usable⟩
    · cases hdecode
  · exact h.files name' file' passphrase record hget hdecode

lemma keeps_saveWallet (hlib : L.Lawful) (hwallet : wallet.Genuine L) :
    Keeps (Sound L) (saveWallet L wallet salt writing) fun _ => True := by
  apply Keeps.bind keeps_get
  intro m hm
  cases writing with
  | done => exact keeps_set (hm.put hlib hwallet _ salt (Or.inl rfl))
  | refused => exact keeps_throw
  | cutShort =>
    apply Keeps.bind (keeps_set (hm.put hlib hwallet _ salt (Or.inr rfl)))
    intro _ _
    exact keeps_throw

lemma keeps_unlockFor {text : Text} {timeout : ℤ}
    (h : ∀ key, normalizePrivateKeyHex L text = .ok key → UsableKey key) :
    Keeps (Sound L) (unlockFor L timeout text now) fun _ => True := by
  apply Keeps.bind (keeps_raising h)
  intro key hkey
  apply keeps_modify
  intro m hm
  refine ⟨hm.active, ?_, hm.files⟩
  intro key' hkey'
  cases hkey'
  exact hkey

lemma keeps_lockWallet : Keeps (Sound L) (lockWallet : ManagerM Sealed Unit) fun _ => True := by
  apply keeps_modify
  intro m hm
  exact ⟨hm.active, fun key hkey => (by cases hkey), hm.files⟩

lemma keeps_setActive (hwallet : wallet.Genuine L) :
    Keeps (Sound L) (modify ({ · with activeWallet := some wallet }) : ManagerM Sealed Unit)
      fun _ => True := by
  apply keeps_modify
  intro m hm
  refine ⟨?_, hm.key, hm.files⟩
  intro wallet' hwallet'
  cases hwallet'
  exact hwallet

lemma keeps_createWallet (hlib : L.Lawful) {mnemonic : Text} :
    Keeps (Sound L) (createWallet L mnemonic salt writing now) fun _ => True := by
  apply Keeps.bind keeps_get
  intro m _
  apply Keeps.bind (keeps_raising fun wallet h => genuine_fromMnemonic hlib h)
  intro wallet hwallet
  apply Keeps.bind (keeps_saveWallet hlib hwallet)
  intro _ _
  apply Keeps.bind keeps_get
  intro m _
  exact Keeps.bind (keeps_unlockFor hwallet.usable) fun _ _ => keeps_pure trivial

lemma genuine_of_loaded {m : SimpleWalletManager Sealed} (hm : m.Sound L) {text : Text}
    {listing : List Text} (h : m.loadWalletByPrivateKey L text listing = .ok (some wallet)) :
    wallet.Genuine L ∧ ∀ key, normalizePrivateKeyHex L text = .ok key → UsableKey key := by
  obtain ⟨target, hnormal, h⟩ := except_bind_eq_ok h
  have hfound := Except.ok.inj h
  obtain ⟨name, -, hname⟩ := List.exists_of_findSome?_eq_some hfound
  obtain ⟨file, hfile, hname⟩ := Option.bind_eq_some_iff.1 hname
  obtain ⟨record, hrecord, hname⟩ := Option.bind_eq_some_iff.1 hname
  split_ifs at hname with htarget
  cases hname
  have hgenuine := hm.files name file m.passphrase wallet hfile hrecord
  refine ⟨hgenuine, ?_⟩
  intro key hkey
  rw [hnormal] at hkey
  cases hkey
  exact hgenuine.usable target htarget

lemma usable_of_fromPrivateKey {text : Text} {network : Network}
    (h : SimpleWallet.fromPrivateKey L text network now = .ok wallet) :
    ∀ key, normalizePrivateKeyHex L text = .ok key → UsableKey key := by
  obtain ⟨normalizedKey, hnormal, h⟩ := except_bind_eq_ok h
  obtain ⟨privateKey, hcheck, -⟩ := except_bind_eq_ok h
  intro key hkey
  rw [hnormal] at hkey
  cases hkey
  exact ⟨privateKey, hcheck⟩

lemma keeps_findOrImport (hlib : L.Lawful) {text : Text} {listing : List Text} :
    Keeps (Sound L) (findOrImport L text listing salt writing now) fun wallet =>
      wallet.Genuine L ∧ ∀ key, normalizePrivateKeyHex L text = .ok key → UsableKey key := by
  apply Keeps.bind keeps_get
  intro m hm
  apply Keeps.bind (keeps_raising fun found hfound => hfound)
  intro found hfound
  cases found with
  | some wallet => exact keeps_pure (genuine_of_loaded hm hfound)
  | none =>
    apply Keeps.bind keeps_get
    intro m' _
    apply Keeps.bind (keeps_raising fun wallet h => h)
    intro wallet hmade
    have hgenuine := genuine_fromPrivateKey hlib hmade
    apply Keeps.bind (keeps_saveWallet hlib hgenuine)
    intro _ _
    exact keeps_pure ⟨hgenuine, usable_of_fromPrivateKey hmade⟩

lemma keeps_activateWallet (hlib : L.Lawful) {text : Text} {listing : List Text} :
    Keeps (Sound L) (activateWallet L text listing salt writing now) fun _ => True := by
  apply Keeps.bind (keeps_raising fun key hkey => hkey)
  intro normalizedKey _
  apply Keeps.bind (keeps_findOrImport hlib)
  intro wallet hwallet
  apply Keeps.bind (keeps_setActive hwallet.1)
  intro _ _
  apply Keeps.bind keeps_get
  intro m _
  exact Keeps.bind (keeps_unlockFor hwallet.2) fun _ _ => keeps_pure trivial

lemma genuine_derivedFrom (hlib : L.Lawful) {derived : SimpleWallet}
    (h : derivedFrom L wallet now = .ok derived) : (withIdentityOf wallet derived).Genuine L := by
  have hgenuine : derived.Genuine L := by
    unfold derivedFrom at h
    split_ifs at h with hmnemonic hwatch
    · exact genuine_fromXpub hlib h
    · exact genuine_fromMnemonic hlib h
  exact ⟨hgenuine.address, hgenuine.usable⟩

lemma keeps_deriveNewAddress (hlib : L.Lawful) :
    Keeps (Sound L) (deriveNewAddress L salt writing now) fun _ => True := by
  apply Keeps.bind keeps_get
  intro m _
  cases m.activeWallet with
  | none => exact keeps_pure trivial
  | some wallet =>
    apply keeps_ite
    · intro _
      exact keeps_pure trivial
    · intro _
      apply Keeps.bind (keeps_raising fun derived h => genuine_derivedFrom hlib h)
      intro derived hderived
      apply Keeps.bind (keeps_setActive hderived)
      intro _ _
      have hsave : Keeps (Sound L) (do
          saveWallet L (withIdentityOf wallet derived) salt writing
          return some (withIdentityOf wallet derived)) fun _ => True :=
        Keeps.bind (keeps_saveWallet hlib hderived) fun _ _ => keeps_pure trivial
      apply keeps_ite
      · intro _
        apply Keeps.bind keeps_get
        intro m' _
        exact Keeps.bind (keeps_unlockFor hderived.usable) fun _ _ => hsave
      · intro _
        exact Keeps.bind keeps_lockWallet fun _ _ => hsave

lemma keeps_importXpubWatchOnly (hlib : L.Lawful) {xpub label : Text} :
    Keeps (Sound L) (importXpubWatchOnly L xpub label salt writing now) fun _ => True := by
  apply Keeps.bind keeps_get
  intro m _
  apply Keeps.bind (keeps_raising fun wallet h => genuine_fromXpub hlib h)
  intro wallet hwallet
  apply Keeps.bind (keeps_saveWallet hlib hwallet)
  intro _ _
  apply Keeps.bind (keeps_setActive hwallet)
  intro _ _
  exact Keeps.bind keeps_lockWallet fun _ _ => keeps_pure trivial

lemma genuine_of_readActive {m : SimpleWalletManager Sealed} (hm : m.Sound L) {active : SimpleWallet}
    {passphrase : Text} (h : m.readActive L active passphrase = some wallet) : wallet.Genuine L := by
  obtain ⟨file, hfile, hdecrypt⟩ := Option.bind_eq_some_iff.1 h
  cases file with
  | plaintext record => cases hdecrypt
  | encrypted payload => exact hm.files _ _ passphrase wallet hfile hdecrypt
  | unreadable => cases hdecrypt

lemma keeps_walletPassphrase {passphrase : Text} {timeoutSecs : ℤ} :
    Keeps (Sound L) (walletPassphrase L passphrase timeoutSecs now) fun _ => True := by
  apply Keeps.bind keeps_get
  intro m _
  cases m.activeWallet with
  | none => exact keeps_pure trivial
  | some active =>
    apply keeps_ite
    · intro _
      exact keeps_pure trivial
    · intro _
      apply Keeps.bind keeps_get
      intro m' hm'
      cases hread : readActive L m' active passphrase with
      | none => exact keeps_pure trivial
      | some wallet =>
        have hwallet := genuine_of_readActive hm' hread
        apply keeps_ite
        · intro _
          exact keeps_pure trivial
        · intro _
          apply Keeps.bind (R := fun _ => True) (Q := fun _ => True)
          · apply keeps_modify
            intro m'' hm''
            refine ⟨?_, hm''.key, hm''.files⟩
            intro wallet' hwallet'
            cases hwallet'
            exact hwallet
          · intro _ _
            apply keeps_ite
            · intro _
              exact Keeps.bind keeps_lockWallet fun _ _ => keeps_pure trivial
            · intro _
              exact Keeps.bind (keeps_unlockFor hwallet.usable) fun _ _ => keeps_pure trivial

lemma keeps_getActivePrivateKey :
    Keeps (Sound L) (getActivePrivateKey now : ManagerM Sealed _) fun _ => True := by
  apply Keeps.bind keeps_get
  intro m _
  have hrest : Keeps (Sound L) (do return (← get).activePrivateKey : ManagerM Sealed _)
      fun _ => True :=
    Keeps.bind keeps_get fun _ _ => keeps_pure trivial
  apply keeps_ite
  · intro _
    exact Keeps.bind keeps_lockWallet fun _ _ => hrest
  · intro _
    exact hrest

end calls

/-- The unlocked key can sign for the address of the active wallet. -/
def HoldsActiveKey (m : SimpleWalletManager Sealed) : Prop :=
  ∀ wallet key, m.activeWallet = some wallet → m.activePrivateKey = some key →
    wallet.watchOnly = false → HoldsKey L wallet key

variable {L} in
lemma holdsActiveKey {m : SimpleWalletManager Sealed} (hkept : m.Kept L) (hsound : m.Sound L) :
    m.HoldsActiveKey L := by
  intro wallet key hactive hkey hwatch
  obtain ⟨privateKey, hcheck⟩ := hsound.key key hkey
  obtain ⟨hk, -⟩ := check_ok hcheck
  obtain ⟨wallet', hactive', hpublic⟩ := hkept.key key hkey
  have hsame : wallet = wallet' := Option.some.inj (hactive.symm.trans hactive')
  obtain ⟨publicKey, hhex, haddress⟩ := (hsound.active wallet hactive).address hwatch
  have hbytes : bytesFromHex wallet.publicKeyHex = .ok (L.privateToPublic privateKey) := by
    rw [hsame, hpublic, PrivateKey.publicKeyHex, bytesFromHex_hexOfBytes, hk]
  have hpublicKey : publicKey = L.privateToPublic privateKey := by
    rw [hhex, bytesFromHex_hexOfBytes] at hbytes
    exact Except.ok.inj hbytes
  rw [hpublicKey] at haddress
  exact ⟨privateKey, hcheck, hbytes, haddress⟩

end SimpleWalletManager

namespace WalletCall
variable {Sealed : Type} {L : WalletLib Sealed} {m : SimpleWalletManager Sealed}

lemma sound_stateAfter {α : Type} {x : ManagerM Sealed α} (h : Keeps (Sound L) x fun _ => True)
    (hm : m.Sound L) : (stateAfter x m).Sound L := by
  have hrun := h m hm
  unfold stateAfter
  cases hx : x m with
  | ok a m' =>
    rw [hx] at hrun
    exact hrun.1
  | error e m' =>
    rw [hx] at hrun
    exact hrun

lemma sound_opened {network : Network} {files : KeyedRows Text (WalletFile Sealed)}
    {passphrase : Text} {timeout : ℕ}
    (hfiles : ∀ name file passphrase record, files.get? name = some file →
      tryDecode L passphrase file = some record → record.Genuine L) :
    (opened network files passphrase timeout).Sound L :=
  ⟨fun wallet h => (by cases h), fun key h => (by cases h), hfiles⟩

lemma sound_after (hlib : L.Lawful) (hm : m.Sound L) (call : WalletCall) :
    (call.after L m).Sound L := by
  cases call with
  | createWallet mnemonic salt writing now => exact sound_stateAfter (keeps_createWallet hlib) hm
  | activateWallet privateKey listing salt writing now =>
    exact sound_stateAfter (keeps_activateWallet hlib) hm
  | deriveNewAddress salt writing now => exact sound_stateAfter (keeps_deriveNewAddress hlib) hm
  | importXpubWatchOnly xpub label salt writing now =>
    exact sound_stateAfter (keeps_importXpubWatchOnly hlib) hm
  | lockWallet => exact sound_stateAfter keeps_lockWallet hm
  | walletPassphrase passphrase timeoutSecs now => exact sound_stateAfter keeps_walletPassphrase hm
  | getActivePrivateKey now => exact sound_stateAfter keeps_getActivePrivateKey hm
  | reopen passphrase timeout => exact sound_opened hm.files

/-- Throughout the calls on a new manager that store no foreign wallet, an unlocked key can sign
for the active address. -/
theorem holdsActiveKey_along (hlib : L.Lawful) (calls : List WalletCall) (network : Network)
    (files : KeyedRows Text (WalletFile Sealed)) (passphrase : Text) (timeout : ℕ)
    (hfiles : (opened network files passphrase timeout).FilesMatch L)
    (hgenuine : ∀ name file passphrase record, files.get? name = some file →
      tryDecode L passphrase file = some record → record.Genuine L)
    (hsafe : AllSafe (after L) (Safe L) calls (opened network files passphrase timeout)) :
    Along (after L) (HoldsActiveKey L) calls (opened network files passphrase timeout) := by
  have hstart : (opened network files passphrase timeout).Kept L ∧
      (opened network files passphrase timeout).Sound L :=
    ⟨⟨keyMatches_locked rfl, hfiles⟩, sound_opened hgenuine⟩
  have hkept : Along (after L) (fun m => m.Kept L ∧ m.Sound L) calls
      (opened network files passphrase timeout) := by
    apply (along_iff_allSafe_of_step (I := fun m => m.Kept L ∧ m.Sound L) (fun _ h => h) _
      hstart).2 hsafe
    intro m call h
    obtain ⟨hfiles', hkey⟩ := after_steps hlib h.1 call
    have hsound := sound_after hlib h.2 call
    constructor
    · constructor
      · intro h'
        exact hkey.1 h'.1.key
      · intro hcall
        exact ⟨⟨hkey.2 hcall, hfiles'⟩, hsound⟩
    · intro h'
      exact h'
  exact hkept.imp fun m h => holdsActiveKey h.1 h.2

end WalletCall
end BerzCoin
