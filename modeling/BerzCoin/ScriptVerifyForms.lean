import BerzCoin.ScriptBoundary

/-! The opcodes with a `VERIFY` form, compared with the plain opcode and `OP_VERIFY` after it. -/
namespace BerzCoin.Script
open Stack (Items)

/-- The opcodes in turn, until one of them raises or returns `False`. -/
def executeOpcodes (ctx : Context) : List Opcode → Machine → Except ScriptError (Bool × Machine)
  | [], m => .ok (true, m)
  | op :: ops, m => do
      let (continues, m) ← executeOpcode ctx op m
      if continues then executeOpcodes ctx ops m else return (false, m)

inductive VerifyForm
  | equal
  | checksig
  | checkmultisig
  deriving DecidableEq, Repr

namespace VerifyForm

def plain : VerifyForm → Opcode
  | equal => .OP_EQUAL
  | checksig => .OP_CHECKSIG
  | checkmultisig => .OP_CHECKMULTISIG

def verifying : VerifyForm → Opcode
  | equal => .OP_EQUALVERIFY
  | checksig => .OP_CHECKSIGVERIFY
  | checkmultisig => .OP_CHECKMULTISIGVERIFY

end VerifyForm

/-- Execution goes on after the opcodes. -/
def Succeeds (r : Except ScriptError (Bool × Machine)) (m : Machine) : Prop := r = .ok (true, m)

def Fails (r : Except ScriptError (Bool × Machine)) : Prop := ∀ m, ¬ Succeeds r m

/-- One fails exactly when the other does, and where both go on the stacks are the same. -/
def SameOutcome (r r' : Except ScriptError (Bool × Machine)) : Prop :=
  (Fails r ↔ Fails r') ∧ ∀ m m', Succeeds r m → Succeeds r' m' → m.items = m'.items

@[simp] lemma succeeds_ok_true (m n : Machine) : Succeeds (.ok (true, m)) n ↔ m = n := by
  simp [Succeeds]

@[simp] lemma not_succeeds_error (e : ScriptError) (m : Machine) : ¬ Succeeds (.error e) m :=
  fun h => nomatch h

@[simp] lemma fails_error (e : ScriptError) : Fails (.error e) := fun _ h => nomatch h

@[simp] lemma fails_ok_true (m : Machine) : ¬ Fails (.ok (true, m)) := fun h => h m rfl

/-- Two items, and no failing signature that `NULLFAIL` objects to. -/
def ChecksigOperands (ctx : Context) : Items → Prop
  | pubkey :: sig :: _ =>
      ctx.flags.isEnabled ScriptFlags.VERIFY_NULLFAIL = true → sig ≠ [] →
        ctx.checker.checkSignature ctx.crypto sig pubkey = true
  | _ => False

/-- A key count, that many keys, a signature count, that many signatures and the dummy. The
counts and the dummy may be missing: they read as empty items. -/
def MultisigOperands (ctx : Context) (s : Items) : Prop :=
  let nKeys := castToInt (s.head?.getD [])
  let afterKeys := s.tail.drop nKeys.toNat
  let nSigs := castToInt (afterKeys.head?.getD [])
  let afterSigs := afterKeys.tail.drop nSigs.toNat
  (0 ≤ nKeys ∧ nKeys ≤ 20 ∧ nKeys.toNat ≤ s.tail.length) ∧
  (0 ≤ nSigs ∧ nSigs ≤ nKeys ∧ nSigs.toNat ≤ afterKeys.tail.length) ∧
  (ctx.flags.isEnabled ScriptFlags.VERIFY_NULLDUMMY = true → afterSigs.head?.getD [] = [])

/-- The stack holds operands the plain opcode does not raise on. -/
def VerifyForm.Operands (ctx : Context) (s : Items) : VerifyForm → Prop
  | equal => 2 ≤ s.length
  | checksig => ChecksigOperands ctx s
  | checkmultisig => MultisigOperands ctx s

lemma opChecksig_cases (ctx : Context) (s : Items) :
    (ChecksigOperands ctx s ∧ ∃ valid below, opChecksig ctx s = .ok (true, boolItem valid :: below)) ∨
    (¬ ChecksigOperands ctx s ∧ ∃ e, opChecksig ctx s = .error e) := by
  rcases s with _ | ⟨pubkey, _ | ⟨sig, s⟩⟩
  · exact Or.inr ⟨id, _, rfl⟩
  · exact Or.inr ⟨id, _, rfl⟩
  · simp only [ChecksigOperands, opChecksig]
    cases hvalid : ctx.checker.checkSignature ctx.crypto sig pubkey with
    | true => exact Or.inl ⟨fun _ _ => rfl, true, s, by simp⟩
    | false =>
      by_cases hflag : ctx.flags.isEnabled ScriptFlags.VERIFY_NULLFAIL = true
      · by_cases hsig : sig = []
        · exact Or.inl ⟨fun _ h => absurd hsig h, false, s, by simp [hsig]⟩
        · exact Or.inr ⟨fun h => by simpa using h hflag hsig, _, by simp [hflag, hsig]; rfl⟩
      · exact Or.inl ⟨fun h => absurd h hflag, false, s, by simp [hflag]⟩

lemma popMany_eq (e : ScriptError) (n : ℕ) (s : Items) :
    popMany e n s = if n ≤ s.length then .ok (s.take n, s.drop n) else .error e := by
  induction n generalizing s with
  | zero => simp [popMany]
  | succ n ih =>
    cases s with
    | nil => simp [popMany, popOr, bind, Except.bind]
    | cons a s =>
      simp only [popMany, popOr, bind, Except.bind, ih, List.length_cons, List.take_succ_cons,
        List.drop_succ_cons, Nat.add_le_add_iff_right]
      split_ifs <;> rfl

lemma opCheckmultisig_cases (ctx : Context) (s : Items) :
    (MultisigOperands ctx s ∧
      ∃ valid below, opCheckmultisig ctx s = .ok (true, boolItem valid :: below)) ∨
    (¬ MultisigOperands ctx s ∧ ∃ e, opCheckmultisig ctx s = .error e) := by
  simp only [MultisigOperands, opCheckmultisig, popMany_eq, bind, Except.bind, pure, Except.pure,
    throw, throwThe, MonadExceptOf.throw]
  set nKeys := castToInt (s.head?.getD [])
  -- the checks in the order the opcode makes them
  by_cases hkeys : nKeys < 0 ∨ 20 < nKeys
  · exact Or.inr ⟨fun h => by omega, _, by rw [if_pos hkeys]⟩
  rw [if_neg hkeys]
  by_cases hpubkeys : nKeys.toNat ≤ s.tail.length
  swap
  · exact Or.inr ⟨fun h => hpubkeys h.1.2.2, .missingPubkey, by simp only [if_neg hpubkeys]⟩
  simp only [if_pos hpubkeys]
  set afterKeys := s.tail.drop nKeys.toNat
  set nSigs := castToInt (afterKeys.head?.getD [])
  by_cases hsigs : nSigs < 0 ∨ nKeys < nSigs
  · exact Or.inr ⟨fun h => by omega, _, by rw [if_pos hsigs]⟩
  rw [if_neg hsigs]
  by_cases hsignatures : nSigs.toNat ≤ afterKeys.tail.length
  swap
  · exact Or.inr ⟨fun h => hsignatures h.2.1.2.2, .missingSignature,
      by simp only [if_neg hsignatures]⟩
  simp only [if_pos hsignatures]
  set afterSigs := afterKeys.tail.drop nSigs.toNat
  by_cases hflag : ctx.flags.isEnabled ScriptFlags.VERIFY_NULLDUMMY = true
  · by_cases hdummy : afterSigs.head?.getD [] = []
    · exact Or.inl ⟨⟨by omega, by omega, fun _ => hdummy⟩, _, _, by simp [hdummy]; exact ⟨rfl, rfl⟩⟩
    · exact Or.inr ⟨fun h => hdummy (h.2.2 hflag), _, by simp [hflag, hdummy]; rfl⟩
  · exact Or.inl ⟨⟨by omega, by omega, fun h => absurd h hflag⟩, _, _, by simp [hflag]; exact ⟨rfl, rfl⟩⟩

lemma plain_cases (ctx : Context) (s : Items) {form : VerifyForm} (hform : form ≠ .equal) :
    (form.Operands ctx s ∧
      ∃ valid below, executeStackOpcode ctx form.plain s = .ok (true, boolItem valid :: below)) ∨
    (¬ form.Operands ctx s ∧ ∃ e, executeStackOpcode ctx form.plain s = .error e) := by
  cases form with
  | equal => exact absurd rfl hform
  | checksig => exact opChecksig_cases ctx s
  | checkmultisig => exact opCheckmultisig_cases ctx s

lemma executeOpcode_plain (ctx : Context) (form : VerifyForm) (m : Machine) :
    executeOpcode ctx form.plain m =
      (executeStackOpcode ctx form.plain m.items).map fun p => (p.1, { m with items := p.2 }) := by
  cases form <;> rfl

/-- The signature opcodes return `True` whatever they push, so their `VERIFY` forms test
nothing and behave as the plain opcodes. -/
lemma executeOpcode_verifying {ctx : Context} {form : VerifyForm} (hform : form ≠ .equal)
    (m : Machine) {r : Except ScriptError (Bool × Items)}
    (h : executeStackOpcode ctx form.plain m.items = r) (hr : ∀ c s, r = .ok (c, s) → c = true) :
    executeOpcode ctx form.verifying m = r.map fun p => (p.1, { m with items := p.2 }) := by
  have hstack : executeStackOpcode ctx form.verifying m.items = r := by
    cases form with
    | equal => exact absurd rfl hform
    | checksig =>
      simp only [VerifyForm.plain, executeStackOpcode] at h
      simp only [VerifyForm.verifying, executeStackOpcode, h]
      cases r with
      | error e => rfl
      | ok p =>
        obtain ⟨c, s⟩ := p
        rw [hr c s rfl]
        rfl
    | checkmultisig =>
      simp only [VerifyForm.plain, executeStackOpcode] at h
      simp only [VerifyForm.verifying, executeStackOpcode, h]
      cases r with
      | error e => rfl
      | ok p =>
        obtain ⟨c, s⟩ := p
        rw [hr c s rfl]
        rfl
  have hexec : executeOpcode ctx form.verifying m =
      (executeStackOpcode ctx form.verifying m.items).map
        fun p => (p.1, { m with items := p.2 }) := by
    cases form <;> rfl
  rw [hexec, hstack]

lemma executeOpcode_verify_boolItem (ctx : Context) (m : Machine) (valid : Bool) (below : Items) :
    executeOpcode ctx .OP_VERIFY { m with items := boolItem valid :: below } =
      if valid then .ok (true, { m with items := below }) else .error (.failed .OP_VERIFY) := by
  cases valid <;> rfl

lemma sameOutcome_equal (ctx : Context) (m : Machine) :
    SameOutcome (executeOpcode ctx .OP_EQUALVERIFY m)
      (executeOpcodes ctx [.OP_EQUAL, .OP_VERIFY] m) := by
  obtain ⟨rest, items, altstack, ifStack, opCount⟩ := m
  rcases items with _ | ⟨a, _ | ⟨b, s⟩⟩
  · exact ⟨⟨fun _ => fails_error _, fun _ => fails_error _⟩, fun _ _ h => nomatch h⟩
  · exact ⟨⟨fun _ => fails_error _, fun _ => fails_error _⟩, fun _ _ h => nomatch h⟩
  · by_cases hab : a = b
    · simp [SameOutcome, executeOpcode, executeStackOpcode, executeOpcodes, hab, bind, Except.bind,
        pure, Except.pure, boolItem, popOr, castToBool]
    · simp [SameOutcome, executeOpcode, executeStackOpcode, executeOpcodes, hab, bind, Except.bind,
        pure, Except.pure, boolItem, popOr, castToBool, throw, throwThe, MonadExceptOf.throw]

/-- `OP_EQUALVERIFY` is `OP_EQUAL OP_VERIFY`. The two signature forms differ from theirs on
every stack on which the plain opcode gets as far as a result. -/
theorem verifyForm_sameOutcome_iff (ctx : Context) (form : VerifyForm) (m : Machine) :
    SameOutcome (executeOpcode ctx form.verifying m)
      (executeOpcodes ctx [form.plain, .OP_VERIFY] m) ↔
      form = .equal ∨ ¬ form.Operands ctx m.items := by
  by_cases hform : form = .equal
  · subst hform
    exact ⟨fun _ => Or.inl rfl, fun _ => sameOutcome_equal ctx m⟩
  rcases plain_cases ctx m.items hform with ⟨hops, valid, below, h⟩ | ⟨hops, e, h⟩
  · have hverifying := executeOpcode_verifying hform m h (by rintro c s ⟨⟩; rfl)
    simp only [Except.map] at hverifying
    have hplain : executeOpcodes ctx [form.plain, .OP_VERIFY] m =
        if valid then .ok (true, { m with items := below }) else .error (.failed .OP_VERIFY) := by
      simp only [executeOpcodes, executeOpcode_plain, h, Except.map, bind, Except.bind, if_true,
        executeOpcode_verify_boolItem]
      cases valid <;> rfl
    rw [hverifying, hplain]
    cases valid with
    | true => simp [SameOutcome, hform, hops]
    | false => simp [SameOutcome, hform, hops]
  · have hverifying := executeOpcode_verifying hform m h (by rintro c s ⟨⟩)
    have hplain : executeOpcodes ctx [form.plain, .OP_VERIFY] m = .error e := by
      simp [executeOpcodes, executeOpcode_plain, h, Except.map, bind, Except.bind]
    rw [hverifying, hplain]
    simp only [Except.map, hform, hops, not_false_iff, or_true, iff_true]
    exact ⟨Iff.rfl, fun _ _ h => nomatch h⟩

/-- A public key and an empty signature, with the standard flags: `OP_CHECKSIGVERIFY` goes on
and leaves the empty item, `OP_CHECKSIG OP_VERIFY` fails. -/
theorem checksigverify_without_signature :
    let m := start [] [0x02 :: List.replicate 32 0x22, []]
    Succeeds (executeOpcode standardContext .OP_CHECKSIGVERIFY m) { m with items := [[]] } ∧
      Fails (executeOpcodes standardContext [.OP_CHECKSIG, .OP_VERIFY] m) ∧
      ¬ SameOutcome (executeOpcode standardContext VerifyForm.checksig.verifying m)
        (executeOpcodes standardContext [VerifyForm.checksig.plain, .OP_VERIFY] m) := by
  intro m
  have hgoes : Succeeds (executeOpcode standardContext .OP_CHECKSIGVERIFY m)
      { m with items := [[]] } := rfl
  have hfails : Fails (executeOpcodes standardContext [.OP_CHECKSIG, .OP_VERIFY] m) :=
    fails_error (.failed .OP_VERIFY)
  exact ⟨hgoes, hfails, fun h => h.1.2 hfails _ hgoes⟩

end BerzCoin.Script
