import BerzCoin.ScriptPushes

/-! Scripts with balanced conditionals as a tree, what they mean, and the executor of leaf
scripts on them. The meaning is given on the tree and names no byte: it says what the opcodes are
for, and the two interpreters are compared with it. -/
namespace BerzCoin.Script
open Stack (Items)

/-- A push in one of the forms with an opcode of its own. -/
inductive Push
  | zero
  | small (n : Fin 16)
  | data1 (data : Bytes) (fits : data.length < 256 ^ 1)
  | data2 (data : Bytes) (fits : data.length < 256 ^ 2)
  | data4 (data : Bytes) (fits : data.length < 256 ^ 4)

namespace Push

/-- The opcode, and the length field and data behind it. -/
def opcode : Push → UInt8
  | zero => 0x00
  | small n => 0x51 + UInt8.ofNat n
  | data1 _ _ => 0x4c
  | data2 _ _ => 0x4d
  | data4 _ _ => 0x4e

def payload : Push → Bytes
  | zero => []
  | small _ => []
  | data1 data _ => leBytes 1 data.length ++ data
  | data2 data _ => leBytes 2 data.length ++ data
  | data4 data _ => leBytes 4 data.length ++ data

def item : Push → Bytes
  | zero => []
  | small n => [UInt8.ofNat n + 1]
  | data1 data _ => data
  | data2 data _ => data
  | data4 data _ => data

end Push

inductive PlainOp
  | dup
  | drop
  | swap
  | equal
  | verify
  deriving DecidableEq, Repr

namespace PlainOp

def opcode : PlainOp → Opcode
  | dup => .OP_DUP
  | drop => .OP_DROP
  | swap => .OP_SWAP
  | equal => .OP_EQUAL
  | verify => .OP_VERIFY

def run : PlainOp → Items → Option Items
  | dup, a :: s => some (a :: a :: s)
  | drop, _ :: s => some s
  | swap, a :: b :: s => some (b :: a :: s)
  | equal, a :: b :: s => some (boolItem (a = b) :: s)
  | verify, a :: s => if castToBool a then some s else none
  | _, _ => none

end PlainOp

/-- A script with balanced conditionals. `negated` tells `OP_NOTIF` from `OP_IF`. -/
inductive Code
  | done
  | push (p : Push) (next : Code)
  | plain (op : PlainOp) (next : Code)
  | ifThen (negated : Bool) (body next : Code)
  | ifElse (negated : Bool) (body other next : Code)

namespace Code

def ifByte (negated : Bool) : UInt8 := Opcode.toByte (if negated then .OP_NOTIF else .OP_IF)

def bytes : Code → Bytes
  | done => []
  | push p next => p.opcode :: (p.payload ++ next.bytes)
  | plain op next => op.opcode.toByte :: next.bytes
  | ifThen negated body next =>
      ifByte negated :: (body.bytes ++ Opcode.toByte .OP_ENDIF :: next.bytes)
  | ifElse negated body other next =>
      ifByte negated :: (body.bytes ++ Opcode.toByte .OP_ELSE ::
        (other.bytes ++ Opcode.toByte .OP_ENDIF :: next.bytes))

end Code

/-- The condition on top of the stack, as `MINIMALIF` lets it be, and the stack below it. -/
def condition (flags : ScriptFlags) (negated : Bool) : Items → Option (Bool × Items)
  | [] => none
  | top :: s =>
    if flags.isEnabled ScriptFlags.VERIFY_MINIMALIF && top ≠ [] && top ≠ [0x01] then none
    else some (castToBool top != negated, s)

namespace Code
variable (flags : ScriptFlags)

/-- The stack that the script leaves; `none` when it fails. -/
def eval : Code → Items → Option Items
  | done, s => some s
  | push p next, s =>
      if p.item.length ≤ MAX_SCRIPT_ELEMENT_SIZE then next.eval (p.item :: s) else none
  | plain op next, s => (op.run s).bind fun s => next.eval s
  | ifThen negated body next, s =>
      (condition flags negated s).bind fun c =>
        (if c.1 then body.eval c.2 else some c.2).bind fun s => next.eval s
  | ifElse negated body other next, s =>
      (condition flags negated s).bind fun c =>
        (if c.1 then body.eval c.2 else other.eval c.2).bind fun s => next.eval s

/-- No stack on the way is over the limit. -/
def Fits : Code → Items → Prop
  | done, s => s.length ≤ MAX_STACK_ITEMS
  | push p next, s => s.length ≤ MAX_STACK_ITEMS ∧ next.Fits (p.item :: s)
  | plain op next, s => s.length ≤ MAX_STACK_ITEMS ∧ ∀ s', op.run s = some s' → next.Fits s'
  | ifThen negated body next, s =>
      s.length ≤ MAX_STACK_ITEMS ∧ ∀ taken s₁, condition flags negated s = some (taken, s₁) →
        (taken = true → body.Fits s₁) ∧
          ∀ s₂, (if taken then body.eval flags s₁ else some s₁) = some s₂ → next.Fits s₂
  | ifElse negated body other next, s =>
      s.length ≤ MAX_STACK_ITEMS ∧ ∀ taken s₁, condition flags negated s = some (taken, s₁) →
        (taken = true → body.Fits s₁) ∧ (taken = false → other.Fits s₁) ∧
          ∀ s₂, (if taken then body.eval flags s₁ else other.eval flags s₁) = some s₂ →
            next.Fits s₂

end Code

/-! Runs of an interpreter that counts opcodes, compared with a meaning. `leads` and `refuses` are
what a run can do; the machine after a stack and a count is given by `k`. -/
section outcome
variable {M : Type} (leads : M → M → Prop) (refuses : M → Prop) (limit : ℕ) (good : Items → Prop)

/-- The run comes to the stack of the meaning with the opcodes counted, or it is refused because
the meaning fails or the count is over the limit. -/
def Outcome (e : Option Items) (ops c : ℕ) (k : Items → ℕ → M) (m : M) : Prop :=
  (∃ s, e = some s ∧ c + ops ≤ limit ∧ good s ∧ leads m (k s (c + ops))) ∨
    (e = none ∨ limit < c + ops) ∧ refuses m

/-- Runs can be put together. -/
structure Chains : Prop where
  trans : ∀ a b c, leads a b → leads b c → leads a c
  refuses : ∀ a b, leads a b → refuses b → refuses a

variable {leads refuses limit good} {e : Option Items} {ops ops' c : ℕ} {k k' : Items → ℕ → M}
  {m m' : M}

lemma Outcome.lead (hchains : Chains leads refuses) (h : leads m m')
    (ho : Outcome leads refuses limit good e ops c k m') :
    Outcome leads refuses limit good e ops c k m := by
  rcases ho with ⟨s, he, hc, hs, hlead⟩ | ⟨hbad, href⟩
  · exact Or.inl ⟨s, he, hc, hs, hchains.trans _ _ _ h hlead⟩
  · exact Or.inr ⟨hbad, hchains.refuses _ _ h href⟩

/-- A run that goes on in the same way from every stack. -/
lemma Outcome.andThen (hchains : Chains leads refuses)
    (h : Outcome leads refuses limit good e ops c k m)
    (hnext : ∀ s c, good s → leads (k s c) (k' s c)) :
    Outcome leads refuses limit good e ops c k' m := by
  rcases h with ⟨s, he, hc, hs, hlead⟩ | hbad
  · exact Or.inl ⟨s, he, hc, hs, hchains.trans _ _ _ hlead (hnext s _ hs)⟩
  · exact Or.inr hbad

/-- One part after the other. -/
lemma Outcome.bind {f : Items → Option Items} {p : Items → ℕ} (hchains : Chains leads refuses)
    (h : Outcome leads refuses limit good e ops c k m)
    (hnext : ∀ s, e = some s → c + ops ≤ limit → good s →
      Outcome leads refuses limit good (f s) (p s) (c + ops) k' (k s (c + ops))) :
    Outcome leads refuses limit good (e.bind f) (ops + (e.map p).getD 0) c k' m := by
  rcases h with ⟨s, rfl, hc, hs, hlead⟩ | ⟨hbad, href⟩
  · have hn := (hnext s rfl hc hs).lead hchains hlead
    simpa [Outcome, Nat.add_assoc] using hn
  · refine Or.inr ⟨?_, href⟩
    rcases hbad with rfl | hover
    · exact Or.inl rfl
    · exact Or.inr (by omega)

/-- The count of a run that fails does not matter. -/
lemma Outcome.congr (h : Outcome leads refuses limit good e ops c k m)
    (hops : e.isSome = true → ops = ops') : Outcome leads refuses limit good e ops' c k m := by
  cases e with
  | none =>
    rcases h with ⟨s, hs, -⟩ | ⟨-, href⟩
    · cases hs
    · exact Or.inr ⟨Or.inl rfl, href⟩
  | some s => exact hops rfl ▸ h

end outcome

/-! One iteration of the executor of leaf scripts on each kind of opcode. -/
section tapStep
variable (C : Crypto) (checker : SignatureChecker) (flags : ScriptFlags) (m : TapMachine)

lemma tapStep_if (negated : Bool) :
    tapStep C checker flags (Code.ifByte negated) m = tapIf flags negated m := by
  cases negated <;> rfl

lemma tapIf_eq (negated : Bool) (hexec : m.isExecuting = true) :
    tapIf flags negated m =
      match condition flags negated m.stack with
      | none => .error (.returns false)
      | some c => .ok { m with stack := c.2, execStack := c.1 :: m.execStack } := by
  cases hstack : m.stack with
  | nil => simp [tapIf, hexec, hstack, condition]
  | cons top s =>
    simp only [tapIf, hexec, hstack, condition]
    split_ifs <;> simp_all

lemma tapStep_else {c : Bool} {cs : List Bool} (h : m.execStack = c :: cs) :
    tapStep C checker flags (Opcode.toByte .OP_ELSE) m =
      .ok { m with execStack := (cs.all id && !c) :: cs } := by
  cases m
  cases h
  rfl

end tapStep

/-- A stack that both interpreters work on. -/
def WithinLimits (s : Items) : Prop :=
  s.length ≤ MAX_STACK_ITEMS ∧ ∀ item ∈ s, item.length ≤ MAX_SCRIPT_ELEMENT_SIZE

lemma checkStackLimits_eq {m : TapMachine} (halt : m.altstack = []) (h : WithinLimits m.stack) :
    m.checkStackLimits = true := by
  have hlength : m.stack.length ≤ MAX_TAPSCRIPT_STACK_ITEMS := h.1
  have hitems : ∀ item ∈ m.stack, item.length ≤ MAX_TAPSCRIPT_ELEMENT_SIZE := h.2
  simpa [TapMachine.checkStackLimits, halt, hlength] using hitems

namespace Code

end Code

section tapLoop
variable (C : Crypto) (checker : SignatureChecker) (flags : ScriptFlags)

/-- A run from the first machine comes to the second one, however much fuel is left over. -/
def TapLeads (m m' : TapMachine) : Prop :=
  ∀ k, m.rest.length ≤ k → ∃ k', m'.rest.length ≤ k' ∧
    tapLoop C checker flags k m = tapLoop C checker flags k' m'

def TapRefuses (m : TapMachine) : Prop :=
  ∀ k, m.rest.length ≤ k → tapLoop C checker flags k m = .error (.returns false)

variable {C checker flags}

lemma TapLeads.refl (m : TapMachine) : TapLeads C checker flags m m := fun k hk => ⟨k, hk, rfl⟩

lemma TapLeads.trans {m m' m'' : TapMachine} (h : TapLeads C checker flags m m')
    (h' : TapLeads C checker flags m' m'') : TapLeads C checker flags m m'' := by
  intro k hk
  obtain ⟨k', hk', heq⟩ := h k hk
  obtain ⟨k'', hk'', heq'⟩ := h' k' hk'
  exact ⟨k'', hk'', heq.trans heq'⟩

lemma TapLeads.refuses {m m' : TapMachine} (h : TapLeads C checker flags m m')
    (h' : TapRefuses C checker flags m') : TapRefuses C checker flags m := by
  intro k hk
  obtain ⟨k', hk', heq⟩ := h k hk
  exact heq.trans (h' k' hk')

lemma TapLeads.step {m m' : TapMachine} {b : UInt8} {r : Bytes} (hrest : m.rest = b :: r)
    (hlimits : m.checkStackLimits = true)
    (h : tapStep C checker flags b { m with rest := r } = .ok m')
    (hlength : m'.rest.length ≤ r.length) : TapLeads C checker flags m m' := by
  intro k hk
  rw [hrest, List.length_cons] at hk
  obtain ⟨k', rfl⟩ : ∃ k', k = k' + 1 := ⟨k - 1, by omega⟩
  exact ⟨k', by omega, by simp [tapLoop, hrest, hlimits, h, bind, Except.bind]⟩

lemma TapRefuses.step {m : TapMachine} {b : UInt8} {r : Bytes} (hrest : m.rest = b :: r)
    (hlimits : m.checkStackLimits = true)
    (h : tapStep C checker flags b { m with rest := r } = .error (.returns false)) :
    TapRefuses C checker flags m := by
  intro k hk
  rw [hrest, List.length_cons] at hk
  obtain ⟨k', rfl⟩ : ∃ k', k = k' + 1 := ⟨k - 1, by omega⟩
  simp [tapLoop, hrest, hlimits, h, bind, Except.bind]

lemma TapLeads.else {m : TapMachine} {r : Bytes} {c : Bool} {cs : List Bool}
    (hrest : m.rest = Opcode.toByte .OP_ELSE :: r) (hlimits : m.checkStackLimits = true)
    (hexec : m.execStack = c :: cs) :
    TapLeads C checker flags m { m with rest := r, execStack := (cs.all id && !c) :: cs } :=
  TapLeads.step hrest hlimits (tapStep_else C checker flags { m with rest := r } hexec) (le_refl _)

variable (C checker flags)

variable {C checker flags}

/-- An executed conditional whose condition can be read. -/
lemma TapLeads.if {m : TapMachine} {negated taken : Bool} {afterIf : Bytes} {s : Items}
    (hbytes : m.rest = Code.ifByte negated :: afterIf) (hexec : m.isExecuting = true) (halt : m.altstack = [])
    (hwithin : WithinLimits m.stack) (hcond : condition flags negated m.stack = some (taken, s)) :
    TapLeads C checker flags m { m with rest := afterIf, stack := s, execStack := taken :: m.execStack } := by
  have hread := tapIf_eq flags { m with rest := afterIf } negated hexec
  simp only [hcond] at hread
  exact TapLeads.step hbytes (checkStackLimits_eq halt hwithin) ((tapStep_if ..).trans hread) (le_refl _)

lemma TapRefuses.if {m : TapMachine} {negated : Bool} {afterIf : Bytes}
    (hbytes : m.rest = Code.ifByte negated :: afterIf) (hexec : m.isExecuting = true) (halt : m.altstack = [])
    (hwithin : WithinLimits m.stack) (hcond : condition flags negated m.stack = none) :
    TapRefuses C checker flags m := by
  have hread := tapIf_eq flags { m with rest := afterIf } negated hexec
  simp only [hcond] at hread
  exact TapRefuses.step hbytes (checkStackLimits_eq halt hwithin) ((tapStep_if ..).trans hread)

end tapLoop

/-- The script leaves a true item on top. -/
def Code.Accepts (flags : ScriptFlags) (code : Code) (s : Items) : Prop :=
  ∃ s', code.eval flags s = some s' ∧ castToBool (s'.head?.getD []) = true

end BerzCoin.Script
