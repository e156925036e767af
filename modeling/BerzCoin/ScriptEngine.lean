import BerzCoin.ScriptSigchecks

/-! The script interpreter. A stack is a list whose head is the top. The script counter
is represented by the bytes that are still to be read. Every path of `_execute_opcode`
that does not raise returns `True`; the value is kept because the loop tests it. -/
namespace BerzCoin.Script

def MAX_SCRIPT_SIZE : ℕ := 10000
def MAX_OPS_PER_SCRIPT : ℕ := 201
def MAX_STACK_ITEMS : ℕ := 1000
def MAX_SCRIPT_ELEMENT_SIZE : ℕ := 520

/-- One constructor for each text of `ScriptError`; the opcode is the one in the text. -/
inductive ScriptError
  | scriptSizeLimitExceeded
  | initialStackElementTooLarge
  | notAnOpcode (byte : UInt8)
  | missingLength (op : Opcode)
  | truncated (op : Opcode)
  | pushElementTooLarge
  | disabledOpcode (op : Opcode)
  | tooManyOpcodes
  | emptyStack (op : Opcode)
  | insufficientStack (op : Opcode)
  | failed (op : Opcode)
  | invalidDepth (op : Opcode)
  | minimalIfViolation
  | withoutIf (op : Opcode)
  | returnEncountered
  | nullfailViolation
  | invalidPubkeyCount
  | missingPubkey
  | invalidSignatureCount
  | missingSignature
  | dummyNotEmpty
  | stackItemLimitExceeded
  | stackElementTooLarge
  | discouragedNop (op : Opcode)
  | reservedOpcode (op : Opcode)
  | unsupportedOpcode (op : Opcode)
  | unbalancedConditional
  | cleanstackViolation
  | raised (e : PyError)
  deriving DecidableEq, Repr

def castToBool : Bytes → Bool
  | [] => false
  | [b] => b ≠ 0 && b ≠ 0x80
  | b :: rest => b ≠ 0 || castToBool rest

/-- Little-endian with the sign in the top bit of the last byte. -/
def castToInt (data : Bytes) : ℤ :=
  match data.getLast? with
  | none => 0
  | some last =>
    if last &&& 0x80 ≠ 0 then -((leNat data - 0x80 * 256 ^ (data.length - 1) : ℕ) : ℤ)
    else leNat data

/-- `while value: out.append(value & 0xFF); value >>= 8`. -/
def numBytes (n : ℕ) : Bytes := (Nat.digits 256 n).map UInt8.ofNat

def encodeScriptNum (value : ℤ) : Bytes :=
  if value = 0 then []
  else
    let out := numBytes value.natAbs
    let last := out.getLastD 0
    if last &&& 0x80 ≠ 0 then out ++ [if value < 0 then 0x80 else 0x00]
    else if value < 0 then out.dropLast ++ [last ||| 0x80]
    else out

def boolItem (b : Bool) : Bytes := if b then [0x01] else []

namespace Stack

abbrev Items := List Bytes

/-- The `Stack` methods that return `False` when they cannot act give `none`. -/
def dup : Items → Option Items
  | a :: s => some (a :: a :: s)
  | [] => none

def dup2 : Items → Option Items
  | a :: b :: s => some (a :: b :: a :: b :: s)
  | _ => none

def drop : Items → Option Items
  | _ :: s => some s
  | [] => none

def drop2 : Items → Option Items
  | _ :: _ :: s => some s
  | _ => none

def «over» : Items → Option Items
  | a :: b :: s => some (b :: a :: b :: s)
  | _ => none

def pick (n : ℕ) (s : Items) : Option Items := (s[n]?).map (· :: s)

def roll (n : ℕ) (s : Items) : Option Items := (s[n]?).map (· :: s.eraseIdx n)

def swap : Items → Option Items
  | a :: b :: s => some (b :: a :: s)
  | _ => none

def tuck : Items → Option Items
  | a :: b :: s => some (a :: b :: a :: s)
  | _ => none

def nip : Items → Option Items
  | a :: _ :: s => some (a :: s)
  | _ => none

def rot : Items → Option Items
  | a :: b :: c :: s => some (c :: a :: b :: s)
  | _ => none

end Stack

structure Context where
  crypto : Crypto
  checker : SignatureChecker
  flags : ScriptFlags

open Stack (Items)

/-- Pop the top item or raise. -/
def popOr (e : ScriptError) : Items → Except ScriptError (Bytes × Items)
  | a :: s => .ok (a, s)
  | [] => .error e

def orRaise (e : ScriptError) : Option Items → Except ScriptError (Bool × Items)
  | some s => .ok (true, s)
  | none => .error e

/-- Pop `n` items, the first popped first. -/
def popMany (e : ScriptError) : ℕ → Items → Except ScriptError (List Bytes × Items)
  | 0, s => .ok ([], s)
  | n + 1, s => do
      let (a, s) ← popOr e s
      let (as, s) ← popMany e n s
      return (a :: as, s)

def opChecksig (ctx : Context) (s : Items) : Except ScriptError (Bool × Items) :=
  match s with
  | pubkey :: sig :: s =>
    let valid := ctx.checker.checkSignature ctx.crypto sig pubkey
    if !valid && ctx.flags.isEnabled ScriptFlags.VERIFY_NULLFAIL && sig ≠ [] then
      .error .nullfailViolation
    else .ok (true, boolItem valid :: s)
  | _ => .error (.insufficientStack .OP_CHECKSIG)

/-- Popping an empty stack gives `None`, which `_cast_to_int` reads as zero and the
dummy test accepts. -/
def opCheckmultisig (ctx : Context) (s : Items) : Except ScriptError (Bool × Items) := do
  let nKeys := castToInt (s.head?.getD [])
  if nKeys < 0 ∨ 20 < nKeys then throw .invalidPubkeyCount
  let (pubkeys, s) ← popMany .missingPubkey nKeys.toNat s.tail
  let nSigs := castToInt (s.head?.getD [])
  if nSigs < 0 ∨ nKeys < nSigs then throw .invalidSignatureCount
  let (signatures, s) ← popMany .missingSignature nSigs.toNat s.tail
  let dummy := s.head?.getD []
  if ctx.flags.isEnabled ScriptFlags.VERIFY_NULLDUMMY && dummy ≠ [] then throw .dummyNotEmpty
  return (true, boolItem (ctx.checker.checkMultisig ctx.crypto signatures pubkeys) :: s.tail)

def hashTop (op : Opcode) (hash : Bytes → Bytes) (s : Items) :
    Except ScriptError (Bool × Items) := do
  let (data, s) ← popOr (.emptyStack op) s
  return (true, hash data :: s)

/-- `OP_PICK` and `OP_ROLL` read their depth from the stack. -/
def withDepth (op : Opcode) (f : ℕ → Items → Option Items) (s : Items) :
    Except ScriptError (Bool × Items) := do
  let (top, s) ← popOr (.emptyStack op) s
  let n := castToInt top
  if n < 0 ∨ (s.length : ℤ) ≤ n then throw (.invalidDepth op)
  orRaise (.failed op) (f n.toNat s)

/-- The opcodes of `_execute_opcode` that only use the main stack. -/
def executeStackOpcode (ctx : Context) (op : Opcode) (s : Items) :
    Except ScriptError (Bool × Items) :=
  match op with
  | .OP_NOP => .ok (true, s)
  | .OP_VERIFY => do
      let (top, s) ← popOr (.emptyStack op) s
      if !castToBool top then throw (.failed op)
      return (true, s)
  | .OP_RETURN => .error .returnEncountered
  | .OP_2DROP => orRaise (.failed op) (Stack.drop2 s)
  | .OP_2DUP => orRaise (.failed op) (Stack.dup2 s)
  | .OP_3DUP =>
      match s with
      | a :: b :: c :: s => .ok (true, a :: b :: c :: a :: b :: c :: s)
      | _ => .error (.insufficientStack op)
  | .OP_2OVER =>
      match s with
      | a :: b :: c :: d :: s => .ok (true, c :: d :: a :: b :: c :: d :: s)
      | _ => .error (.insufficientStack op)
  | .OP_2ROT =>
      -- the six popped items are pushed back in the order they were popped
      if s.length < 6 then .error (.insufficientStack op)
      else .ok (true, (s.take 6).reverse ++ s.drop 6)
  | .OP_2SWAP =>
      if s.length < 4 then .error (.insufficientStack op)
      else .ok (true, (s.take 4).reverse ++ s.drop 4)
  | .OP_IFDUP =>
      match s with
      | item :: s => .ok (true, if castToBool item then item :: item :: s else item :: s)
      | [] => .ok (true, [])
  | .OP_DEPTH => .ok (true, encodeScriptNum s.length :: s)
  | .OP_DROP => orRaise (.failed op) (Stack.drop s)
  | .OP_DUP => orRaise (.failed op) (Stack.dup s)
  | .OP_NIP => orRaise (.failed op) (Stack.nip s)
  | .OP_OVER => orRaise (.failed op) (Stack.over s)
  | .OP_PICK => withDepth op Stack.pick s
  | .OP_ROLL => withDepth op Stack.roll s
  | .OP_ROT => orRaise (.failed op) (Stack.rot s)
  | .OP_SWAP => orRaise (.failed op) (Stack.swap s)
  | .OP_TUCK => orRaise (.failed op) (Stack.tuck s)
  | .OP_SIZE =>
      match s with
      | item :: s => .ok (true, encodeScriptNum item.length :: item :: s)
      | [] => .error (.emptyStack op)
  | .OP_CHECKSIG => opChecksig ctx s
  | .OP_CHECKSIGVERIFY => do
      let (ok, s) ← opChecksig ctx s
      if !ok then throw (.failed op)
      return (true, s)
  | .OP_CHECKMULTISIG => opCheckmultisig ctx s
  | .OP_CHECKMULTISIGVERIFY => do
      let (ok, s) ← opCheckmultisig ctx s
      if !ok then throw (.failed op)
      return (true, s)
  | .OP_EQUAL =>
      match s with
      | a :: b :: s => .ok (true, boolItem (a = b) :: s)
      | _ => .error (.insufficientStack op)
  | .OP_EQUALVERIFY =>
      match s with
      | a :: b :: s => if a ≠ b then .error (.failed op) else .ok (true, s)
      | _ => .error (.insufficientStack op)
  | .OP_HASH160 => hashTop op ctx.crypto.hash160 s
  | .OP_SHA256 => hashTop op ctx.crypto.sha256 s
  | .OP_HASH256 => hashTop op ctx.crypto.hash256 s
  | .OP_SHA1 => hashTop op ctx.crypto.sha1 s
  | .OP_RIPEMD160 => hashTop op ctx.crypto.ripemd160 s
  | .OP_CHECKLOCKTIMEVERIFY => do
      if !ctx.flags.isEnabled ScriptFlags.VERIFY_CHECKLOCKTIMEVERIFY then return (true, s)
      let (top, _) ← popOr (.emptyStack op) s
      let required := castToInt top
      if required < 0 ∨ (ctx.checker.tx.locktime.toNat : ℤ) < required then throw (.failed op)
      return (true, s)
  | .OP_CHECKSEQUENCEVERIFY => do
      if !ctx.flags.isEnabled ScriptFlags.VERIFY_CHECKSEQUENCEVERIFY then return (true, s)
      let (top, _) ← popOr (.emptyStack op) s
      let required := castToInt top
      if required < 0 then throw (.failed op)
      match ctx.checker.tx.vin[ctx.checker.inputIndex]? with
      | none => throw (.raised (.indexError "list index out of range"))
      | some txin =>
        if (txin.sequence.toNat : ℤ) < required then throw (.failed op)
        return (true, s)
  | .OP_NOP1 | .OP_NOP4 | .OP_NOP5 | .OP_NOP6 | .OP_NOP7 | .OP_NOP8 | .OP_NOP9 | .OP_NOP10 =>
      if ctx.flags.isEnabled ScriptFlags.VERIFY_DISCOURAGE_UPGRADABLE_NOPS then
        .error (.discouragedNop op)
      else .ok (true, s)
  | .OP_RESERVED | .OP_VER | .OP_VERIF | .OP_VERNOTIF | .OP_RESERVED1 | .OP_RESERVED2 =>
      .error (.reservedOpcode op)
  | _ => .error (.unsupportedOpcode op)

structure Machine where
  rest : Bytes
  items : Items
  altstack : Items
  ifStack : List Bool
  opCount : ℕ
  deriving DecidableEq, Repr

/-- `_skip_to_endif` looks at every byte, the data of pushes included, and stops after
the first `OP_ELSE` or the `OP_ENDIF` of its own level. -/
def skipToEndif : ℕ → Bytes → Bytes
  | _, [] => []
  | depth, b :: rest =>
    if b = Opcode.toByte .OP_IF ∨ b = Opcode.toByte .OP_NOTIF then skipToEndif (depth + 1) rest
    else if b = Opcode.toByte .OP_ELSE then
      if depth = 1 then rest else skipToEndif depth rest
    else if b = Opcode.toByte .OP_ENDIF then
      if depth - 1 = 0 then rest else skipToEndif (depth - 1) rest
    else skipToEndif depth rest

/-- Enter a conditional branch, skipping it when the condition is false. -/
def enterBranch (condition : Bool) (m : Machine) : Machine :=
  { m with
    ifStack := condition :: m.ifStack
    rest := if condition then m.rest else skipToEndif 1 m.rest }

def popCondition (ctx : Context) (op : Opcode) (m : Machine) :
    Except ScriptError (Bool × Machine) := do
  let (top, s) ← popOr (.emptyStack op) m.items
  if ctx.flags.isEnabled ScriptFlags.VERIFY_MINIMALIF && top ≠ [] && top ≠ [0x01] then
    throw .minimalIfViolation
  return (castToBool top, { m with items := s })

def executeOpcode (ctx : Context) (op : Opcode) (m : Machine) :
    Except ScriptError (Bool × Machine) :=
  match op with
  | .OP_IF => do
      let (condition, m) ← popCondition ctx op m
      return (true, enterBranch condition m)
  | .OP_NOTIF => do
      let (condition, m) ← popCondition ctx op m
      return (true, enterBranch (!condition) m)
  | .OP_ELSE =>
      match m.ifStack with
      | [] => .error (.withoutIf op)
      | c :: cs => .ok (true, enterBranch (!c) { m with ifStack := cs })
  | .OP_ENDIF =>
      match m.ifStack with
      | [] => .error (.withoutIf op)
      | _ :: cs => .ok (true, { m with ifStack := cs })
  | .OP_TOALTSTACK =>
      match m.items with
      | [] => .error (.failed op)
      | a :: s => .ok (true, { m with items := s, altstack := a :: m.altstack })
  | .OP_FROMALTSTACK =>
      match m.altstack with
      | [] => .error (.failed op)
      | a :: alt => .ok (true, { m with items := a :: m.items, altstack := alt })
  | _ => do
      let (continues, s) ← executeStackOpcode ctx op m.items
      return (continues, { m with items := s })

def enforceLimits (m : Machine) : Except ScriptError Unit :=
  if MAX_STACK_ITEMS < m.items.length + m.altstack.length then .error .stackItemLimitExceeded
  else if m.items.any fun item => MAX_SCRIPT_ELEMENT_SIZE < item.length then
    .error .stackElementTooLarge
  else .ok ()

/-- The limits are enforced when the loop goes on. -/
def thenLimits : Bool × Machine → Except ScriptError (Bool × Machine)
  | (false, m) => .ok (false, m)
  | (true, m) => (enforceLimits m).map fun _ => (true, m)

/-- The three `OP_PUSHDATA` forms differ in the width of their length field. -/
def pushData (op : Opcode) (width : ℕ) (m : Machine) : Except ScriptError Machine :=
  if m.rest.length < width then .error (.missingLength op)
  else
    let length := leNat (m.rest.take width)
    let body := m.rest.drop width
    if body.length < length then .error (.truncated op)
    else if MAX_SCRIPT_ELEMENT_SIZE < length then .error .pushElementTooLarge
    else .ok { m with rest := body.drop length, items := body.take length :: m.items }

def handlePush (op : Opcode) (m : Machine) : Except ScriptError Machine :=
  match op with
  | .OP_PUSHDATA1 => pushData op 1 m
  | .OP_PUSHDATA2 => pushData op 2 m
  | .OP_PUSHDATA4 => pushData op 4 m
  | .OP_1NEGATE => .ok { m with items := [0x81] :: m.items }
  | _ =>
      let data : Bytes :=
        if Opcode.toByte .OP_1 ≤ op.toByte then [op.toByte - Opcode.toByte .OP_1 + 1] else []
      .ok { m with items := data :: m.items }

/-- One iteration of the loop on a machine whose opcode byte has been read. -/
def step (ctx : Context) (b : UInt8) (m : Machine) : Except ScriptError (Bool × Machine) :=
  match Opcode.ofByte b with
  | none => .error (.notAnOpcode b)
  | some op =>
    if op.isPush then do
      let m ← handlePush op m
      return (true, m)
    else if op.isDisabled && ctx.flags.isEnabled ScriptFlags.VERIFY_DISCOURAGE_UPGRADABLE_NOPS then
      .error (.disabledOpcode op)
    else if MAX_OPS_PER_SCRIPT < m.opCount + 1 then .error .tooManyOpcodes
    else executeOpcode ctx op { m with opCount := m.opCount + 1 } >>= thenLimits

/-- The `while` loop, for at most `fuel` iterations; `none` is its `return False`. An
iteration reads at least one byte, so the length of the script is enough. -/
def loop (ctx : Context) : ℕ → Machine → Except ScriptError (Option Machine)
  | 0, m => .ok (some m)
  | fuel + 1, m =>
    match m.rest with
    | [] => .ok (some m)
    | b :: rest => do
        let (continues, m) ← step ctx b { m with rest := rest }
        if continues then loop ctx fuel m else return none

def start (script : Bytes) (initialStack : Items) : Machine := ⟨script, initialStack, [], [], 0⟩

/-- What `execute` does after the loop. -/
def finish (ctx : Context) (m : Machine) : Except ScriptError Bool :=
  if m.ifStack ≠ [] then .error .unbalancedConditional
  else if ctx.flags.isEnabled ScriptFlags.VERIFY_CLEANSTACK && m.items.length ≠ 1 then
    .error .cleanstackViolation
  else .ok (castToBool (m.items.head?.getD []))

/-- `execute(script, tx, input_index, amount, initial_stack)`; the initial stack is given
with its top first. -/
def execute (ctx : Context) (script : Bytes) (initialStack : Items) : Except ScriptError Bool :=
  if MAX_SCRIPT_SIZE < script.length then .error .scriptSizeLimitExceeded
  else if initialStack.any fun item => MAX_SCRIPT_ELEMENT_SIZE < item.length then
    .error .initialStackElementTooLarge
  else do
    match ← loop ctx script.length (start script initialStack) with
    | none => return false
    | some m => finish ctx m

/-- The checker the engine builds holds its own flags object. -/
def engineContext (C : Crypto) (tx : Transaction) (inputIndex amount flags : ℕ) : Context :=
  { crypto := C, flags := ⟨flags⟩
    checker := { tx := tx, inputIndex := inputIndex, amount := amount, flags := .object ⟨flags⟩ } }

end BerzCoin.Script
