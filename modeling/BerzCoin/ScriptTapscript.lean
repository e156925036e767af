import BerzCoin.ScriptEngine

/-! Taproot script paths: the commitment of an output to a leaf script, and the executor
of leaf scripts. -/
namespace BerzCoin.Script
open Stack (Items)

def MAX_TAPSCRIPT_SIZE : ℕ := 10000
def MAX_TAPSCRIPT_OPS : ℕ := 201
def MAX_TAPSCRIPT_STACK_ITEMS : ℕ := 1000
def MAX_TAPSCRIPT_ELEMENT_SIZE : ℕ := 520

/-- How `execute_tapscript` leaves its loop early. -/
inductive TapExit
  | returns (result : Bool)
  | raises (e : PyError)
  deriving DecidableEq, Repr

def decodeScriptNum (data : Bytes) (maxSize : ℕ) : Except TapExit ℤ :=
  if maxSize < data.length then .error (.returns false) else .ok (castToInt data)

def isOpSuccess (op : UInt8) : Bool :=
  op.toNat ∈ [80, 98, 126, 127, 128, 129, 131, 132, 133, 134, 137, 138, 141, 142, 149, 150, 151,
    152, 153] || (187 ≤ op.toNat && op.toNat ≤ 254)

/-- `a <= b` on byte strings. -/
def bytesLe : Bytes → Bytes → Bool
  | [], _ => true
  | _ :: _, [] => false
  | a :: as, b :: bs => if a = b then bytesLe as bs else a < b

def parseTapbranchMerkleRoot (H : Hashlib) (merkle : Bytes) (path : List Bytes) : Bytes :=
  path.foldl (fun merkle h =>
    H.taggedHash (asciiBytes "TapBranch") (if bytesLe merkle h then merkle ++ h else h ++ merkle))
    merkle

/-- The 32-byte pieces of a control block after its first 33 bytes. -/
def controlPath (controlBlock : Bytes) : List Bytes :=
  (List.range ((controlBlock.length - 33 + 31) / 32)).map fun i => slice controlBlock (33 + 32 * i) 32

def verifyTaprootScriptpathCommitment (C : Crypto) (scriptPubkey script controlBlock : Bytes) :
    Except PyError Bool := do
  if scriptPubkey.length ≠ 34 ∨ scriptPubkey.getD 0 0 ≠ 0x51 ∨ scriptPubkey.getD 1 0 ≠ 0x20 then
    return false
  if controlBlock.length < 33 ∨ (controlBlock.length - 33) % 32 ≠ 0 then return false
  let first := controlBlock.getD 0 0
  let tapleaf := calculateTapleafHash C.toHashlib script (first &&& 0xfe)
  let merkleRoot := parseTapbranchMerkleRoot C.toHashlib tapleaf (controlPath controlBlock)
  match ← C.taprootTweakPubkey (slice controlBlock 1 32) merkleRoot with
  | none => return false
  | some (qXonly, qParity) =>
    return qXonly = slice scriptPubkey 2 32 && qParity = (first &&& 1).toNat

structure TapMachine where
  rest : Bytes
  stack : Items
  altstack : Items
  execStack : List Bool
  opCount : ℕ
  deriving DecidableEq, Repr

namespace TapMachine

def isExecuting (m : TapMachine) : Bool := m.execStack.all id

def checkStackLimits (m : TapMachine) : Bool :=
  m.stack.length + m.altstack.length ≤ MAX_TAPSCRIPT_STACK_ITEMS &&
    !(m.stack ++ m.altstack).any fun x => MAX_TAPSCRIPT_ELEMENT_SIZE < x.length

def push (m : TapMachine) (item : Bytes) : TapMachine := { m with stack := item :: m.stack }

end TapMachine

/-- A push of `length` bytes; outside an executed branch the data is only skipped. -/
def tapPush (length : ℕ) (m : TapMachine) : Except TapExit TapMachine :=
  if m.rest.length < length then .error (.returns false)
  else
    let m' := { m with rest := m.rest.drop length }
    if !m.isExecuting then .ok m'
    else if MAX_TAPSCRIPT_ELEMENT_SIZE < length then .error (.returns false)
    else .ok (m'.push (m.rest.take length))

def tapPushData (width : ℕ) (m : TapMachine) : Except TapExit TapMachine :=
  if m.rest.length < width then .error (.returns false)
  else tapPush (leNat (m.rest.take width)) { m with rest := m.rest.drop width }

def orFalse : Option Items → Except TapExit Items
  | some s => .ok s
  | none => .error (.returns false)

/-- `OP_NOT` and `OP_0NOTEQUAL`. -/
def tapUnary (f : ℤ → Bytes) : Items → Except TapExit Items
  | a :: s => return f (← decodeScriptNum a 4) :: s
  | [] => .error (.returns false)

/-- The binary arithmetic opcodes; `a` is the top item. -/
def tapBinary (f : ℤ → ℤ → Bytes) : Items → Except TapExit Items
  | a :: b :: s => return f (← decodeScriptNum a 4) (← decodeScriptNum b 4) :: s
  | _ => .error (.returns false)

def tapCheckSchnorr (C : Crypto) (checker : SignatureChecker) (sig pubkey : Bytes) :
    Except TapExit Bool :=
  match checker.checkSchnorrSignature C sig pubkey with
  | .ok valid => .ok valid
  | .error e => .error (.raises e)

def tapHash (hash : Bytes → Bytes) : Items → Except TapExit Items
  | a :: s => .ok (hash a :: s)
  | [] => .error (.returns false)

/-- The opcodes that only use the main stack. -/
def tapStackOpcode (C : Crypto) (checker : SignatureChecker) (op : Opcode) (s : Items) :
    Except TapExit Items :=
  match op with
  | .OP_NOP | .OP_NOP1 | .OP_CHECKLOCKTIMEVERIFY | .OP_CHECKSEQUENCEVERIFY | .OP_NOP4 | .OP_NOP5
  | .OP_NOP6 | .OP_NOP7 | .OP_NOP8 | .OP_NOP9 | .OP_NOP10 | .OP_CODESEPARATOR => .ok s
  | .OP_DROP => orFalse (Stack.drop s)
  | .OP_DUP => orFalse (Stack.dup s)
  | .OP_NIP => orFalse (Stack.nip s)
  | .OP_OVER => orFalse (Stack.over s)
  | .OP_SWAP => orFalse (Stack.swap s)
  | .OP_TUCK => orFalse (Stack.tuck s)
  | .OP_2DROP => orFalse (Stack.drop2 s)
  | .OP_2DUP => orFalse (Stack.dup2 s)
  | .OP_IFDUP =>
      match s with
      | a :: s => .ok (if castToBool a then a :: a :: s else a :: s)
      | [] => .error (.returns false)
  | .OP_DEPTH => .ok (encodeScriptNum s.length :: s)
  | .OP_SIZE =>
      match s with
      | a :: s => .ok (encodeScriptNum a.length :: a :: s)
      | [] => .error (.returns false)
  | .OP_EQUAL =>
      match s with
      | a :: b :: s => .ok (boolItem (a = b) :: s)
      | _ => .error (.returns false)
  | .OP_EQUALVERIFY =>
      match s with
      | a :: b :: s => if a ≠ b then .error (.returns false) else .ok s
      | _ => .error (.returns false)
  | .OP_VERIFY =>
      match s with
      | a :: s => if !castToBool a then .error (.returns false) else .ok s
      | [] => .error (.returns false)
  | .OP_HASH160 => tapHash C.hash160 s
  | .OP_SHA256 => tapHash C.sha256 s
  | .OP_HASH256 => tapHash C.hash256 s
  | .OP_SHA1 => tapHash C.sha1 s
  | .OP_CHECKSIG =>
      match s with
      | pubkey :: sig :: s => return boolItem (← tapCheckSchnorr C checker sig pubkey) :: s
      | _ => .error (.returns false)
  | .OP_CHECKSIGVERIFY =>
      match s with
      | pubkey :: sig :: s => do
          if !(← tapCheckSchnorr C checker sig pubkey) then throw (.returns false)
          return s
      | _ => .error (.returns false)
  | .OP_CHECKSIGADD =>
      match s with
      | pubkey :: n :: sig :: s => do
          let n ← decodeScriptNum n 4
          let valid ← tapCheckSchnorr C checker sig pubkey
          return encodeScriptNum (n + if valid then 1 else 0) :: s
      | _ => .error (.returns false)
  | .OP_NOT => tapUnary (fun n => boolItem (n = 0)) s
  | .OP_0NOTEQUAL => tapUnary (fun n => boolItem (n ≠ 0)) s
  | .OP_ADD => tapBinary (fun a b => encodeScriptNum (b + a)) s
  | .OP_SUB => tapBinary (fun a b => encodeScriptNum (b - a)) s
  | .OP_BOOLAND => tapBinary (fun a b => boolItem (a ≠ 0 ∧ b ≠ 0)) s
  | .OP_BOOLOR => tapBinary (fun a b => boolItem (a ≠ 0 ∨ b ≠ 0)) s
  | .OP_NUMEQUAL => tapBinary (fun a b => boolItem (a = b)) s
  | .OP_NUMEQUALVERIFY =>
      match s with
      | a :: b :: s => do
          if (← decodeScriptNum a 4) ≠ (← decodeScriptNum b 4) then throw (.returns false)
          return s
      | _ => .error (.returns false)
  -- the reserved opcodes, `OP_RETURN`, the multisig opcodes and all others
  | _ => .error (.returns false)

def tapIf (flags : ScriptFlags) (negated : Bool) (m : TapMachine) : Except TapExit TapMachine :=
  if !m.isExecuting then .ok { m with execStack := false :: m.execStack }
  else
    match m.stack with
    | [] => .error (.returns false)
    | item :: s =>
      if flags.isEnabled ScriptFlags.VERIFY_MINIMALIF && item ≠ [] && item ≠ [0x01] then
        .error (.returns false)
      else
        .ok { m with stack := s, execStack := (castToBool item != negated) :: m.execStack }

def tapOpcode (C : Crypto) (checker : SignatureChecker) (op : Opcode) (m : TapMachine) :
    Except TapExit TapMachine :=
  match op with
  | .OP_TOALTSTACK =>
      match m.stack with
      | [] => .error (.returns false)
      | a :: s => .ok { m with stack := s, altstack := a :: m.altstack }
  | .OP_FROMALTSTACK =>
      match m.altstack with
      | [] => .error (.returns false)
      | a :: alt => .ok { m with stack := a :: m.stack, altstack := alt }
  | _ => return { m with stack := ← tapStackOpcode C checker op m.stack }

/-- One iteration of the loop on a machine whose opcode byte has been read. -/
def tapStep (C : Crypto) (checker : SignatureChecker) (flags : ScriptFlags) (b : UInt8)
    (m : TapMachine) : Except TapExit TapMachine :=
  if b.toNat ≤ 75 then tapPush b.toNat m
  else
    match Opcode.ofByte b with
    | some .OP_PUSHDATA1 => tapPushData 1 m
    | some .OP_PUSHDATA2 => tapPushData 2 m
    | some .OP_PUSHDATA4 => tapPushData 4 m
    | some .OP_IF => tapIf flags false m
    | some .OP_NOTIF => tapIf flags true m
    | some .OP_ELSE =>
        match m.execStack with
        | [] => .error (.returns false)
        | c :: cs => .ok { m with execStack := (cs.all id && !c) :: cs }
    | some .OP_ENDIF =>
        match m.execStack with
        | [] => .error (.returns false)
        | _ :: cs => .ok { m with execStack := cs }
    | op =>
      if Opcode.toByte .OP_1 ≤ b ∧ b ≤ Opcode.toByte .OP_16 then
        .ok (if m.isExecuting then m.push [b - Opcode.toByte .OP_1 + 1] else m)
      else if !m.isExecuting then .ok m
      else if isOpSuccess b then .error (.returns true)
      else if MAX_TAPSCRIPT_OPS < m.opCount + 1 then .error (.returns false)
      else
        match op with
        | none => .error (.returns false)
        | some op => tapOpcode C checker op { m with opCount := m.opCount + 1 }

def tapLoop (C : Crypto) (checker : SignatureChecker) (flags : ScriptFlags) :
    ℕ → TapMachine → Except TapExit TapMachine
  | 0, m => .ok m
  | fuel + 1, m =>
    match m.rest with
    | [] => .ok m
    | b :: rest =>
      if !m.checkStackLimits then .error (.returns false)
      else do
        let m ← tapStep C checker flags b { m with rest := rest }
        tapLoop C checker flags fuel m

/-- The initial stack is given in the witness order, bottom first. -/
def executeTapscript (C : Crypto) (script : Bytes) (initialStack : List Bytes)
    (checker : SignatureChecker) (flags : ScriptFlags) : Except PyError Bool :=
  if MAX_TAPSCRIPT_SIZE < script.length then .ok false
  else if MAX_TAPSCRIPT_STACK_ITEMS < initialStack.length then .ok false
  else if initialStack.any fun item => MAX_TAPSCRIPT_ELEMENT_SIZE < item.length then .ok false
  else
    match tapLoop C checker flags script.length ⟨script, initialStack.reverse, [], [], 0⟩ with
    | .error (.returns result) => .ok result
    | .error (.raises e) => .error e
    | .ok m =>
      if m.execStack ≠ [] then .ok false
      else if m.stack = [] then .ok false
      else if !m.checkStackLimits then .ok false
      else .ok (castToBool (m.stack.head?.getD []))

end BerzCoin.Script
