import BerzCoin.ScriptBoundary

/-! The stack opcodes, beside what Bitcoin specifies for them. -/
namespace BerzCoin.Script
open Stack (Items)

inductive StackOp
  | OP_2DROP | OP_2DUP | OP_3DUP | OP_2OVER | OP_2ROT | OP_2SWAP | OP_IFDUP | OP_DROP
  | OP_DUP | OP_NIP | OP_OVER | OP_PICK | OP_ROLL | OP_ROT | OP_SWAP | OP_TUCK
  deriving DecidableEq, Repr

namespace StackOp

def opcode : StackOp → Opcode
  | .OP_2DROP => .OP_2DROP
  | .OP_2DUP => .OP_2DUP
  | .OP_3DUP => .OP_3DUP
  | .OP_2OVER => .OP_2OVER
  | .OP_2ROT => .OP_2ROT
  | .OP_2SWAP => .OP_2SWAP
  | .OP_IFDUP => .OP_IFDUP
  | .OP_DROP => .OP_DROP
  | .OP_DUP => .OP_DUP
  | .OP_NIP => .OP_NIP
  | .OP_OVER => .OP_OVER
  | .OP_PICK => .OP_PICK
  | .OP_ROLL => .OP_ROLL
  | .OP_ROT => .OP_ROT
  | .OP_SWAP => .OP_SWAP
  | .OP_TUCK => .OP_TUCK

/-- The item at a depth that the top item gives, counted below the top item. -/
def atDepth (top : Bytes) (s : Items) : Option (ℕ × Bytes) :=
  let depth := castToInt top
  if depth < 0 then none else (s[depth.toNat]?).map fun item => (depth.toNat, item)

/-- The stack that Bitcoin specifies, top first; `none` where it specifies a failure. The items
are numbered from the bottom, as in the usual notation `x1 x2 -- x2 x1`. -/
def specified : StackOp → Items → Option Items
  | .OP_2DROP, _ :: _ :: s => some s
  | .OP_2DUP, x2 :: x1 :: s => some (x2 :: x1 :: x2 :: x1 :: s)
  | .OP_3DUP, x3 :: x2 :: x1 :: s => some (x3 :: x2 :: x1 :: x3 :: x2 :: x1 :: s)
  | .OP_2OVER, x4 :: x3 :: x2 :: x1 :: s => some (x2 :: x1 :: x4 :: x3 :: x2 :: x1 :: s)
  | .OP_2ROT, x6 :: x5 :: x4 :: x3 :: x2 :: x1 :: s => some (x2 :: x1 :: x6 :: x5 :: x4 :: x3 :: s)
  | .OP_2SWAP, x4 :: x3 :: x2 :: x1 :: s => some (x2 :: x1 :: x4 :: x3 :: s)
  | .OP_IFDUP, x :: s => some (if castToBool x then x :: x :: s else x :: s)
  | .OP_DROP, _ :: s => some s
  | .OP_DUP, x :: s => some (x :: x :: s)
  | .OP_NIP, x2 :: _ :: s => some (x2 :: s)
  | .OP_OVER, x2 :: x1 :: s => some (x1 :: x2 :: x1 :: s)
  | .OP_PICK, n :: s => (atDepth n s).map fun (_, item) => item :: s
  | .OP_ROLL, n :: s => (atDepth n s).map fun (depth, item) => item :: s.eraseIdx depth
  | .OP_ROT, x3 :: x2 :: x1 :: s => some (x1 :: x3 :: x2 :: s)
  | .OP_SWAP, x2 :: x1 :: s => some (x1 :: x2 :: s)
  | .OP_TUCK, x2 :: x1 :: s => some (x2 :: x1 :: x2 :: s)
  | _, _ => none

end StackOp

/-- A run of an opcode that fails where nothing is specified, and gives the specified stack
elsewhere. -/
def Realizes (run : Except ScriptError (Bool × Items)) : Option Items → Prop
  | none => ∃ e, run = .error e
  | some s => run = .ok (true, s)

lemma realizes_orRaise (e : ScriptError) (s : Option Items) : Realizes (orRaise e s) s := by
  cases s with
  | none => exact ⟨e, rfl⟩
  | some s => rfl

lemma realizes_ok_iff {s s' : Items} : Realizes (.ok (true, s)) (some s') ↔ s = s' := by
  simp [Realizes]

lemma realizes_error (e : ScriptError) : Realizes (.error e) none := ⟨e, rfl⟩

/-- `OP_PICK` and `OP_ROLL` differ in what they do with the item at their depth. -/
lemma realizes_withDepth (op : Opcode) {f : ℕ → Items → Option Items} {g : ℕ × Bytes → Items}
    {n : Bytes} {s : Items} (hf : ∀ depth item, s[depth]? = some item → f depth s = some (g (depth, item))) :
    Realizes (withDepth op f (n :: s)) ((StackOp.atDepth n s).map g) := by
  unfold StackOp.atDepth
  dsimp only
  change Realizes (do
    if castToInt n < 0 ∨ (s.length : ℤ) ≤ castToInt n then throw (.invalidDepth op)
    orRaise (.failed op) (f (castToInt n).toNat s)) _
  by_cases hnegative : castToInt n < 0
  · rw [if_pos (Or.inl hnegative), if_pos hnegative]
    exact realizes_error _
  · rw [if_neg hnegative]
    cases hitem : s[(castToInt n).toNat]? with
    | none =>
      have hle := List.getElem?_eq_none_iff.1 hitem
      rw [if_pos (Or.inr (by omega))]
      exact realizes_error _
    | some item =>
      obtain ⟨hlt, -⟩ := List.getElem?_eq_some_iff.1 hitem
      rw [if_neg (by omega), hf _ _ hitem]
      exact realizes_orRaise _ _

/-- Where the stack opcodes do what is specified. -/
def StackOp.Conforms : StackOp → Items → Prop
  | .OP_2ROT, x6 :: x5 :: x4 :: x3 :: x2 :: x1 :: _ => x1 = x2 ∧ x3 = x6 ∧ x4 = x5
  | .OP_2SWAP, x4 :: x3 :: x2 :: x1 :: _ => x1 = x2 ∧ x3 = x4
  | .OP_IFDUP, s => s ≠ []
  | _, _ => True

variable (ctx : Context)

section stackMethods

/-- The methods of `Stack` that act on a fixed number of items do what is specified. -/
lemma realizes_method (e : ScriptError) {s : Option Items} {t : Option Items} (h : s = t) :
    Realizes (orRaise e s) t := by
  rw [h]
  exact realizes_orRaise e t

lemma specified_drop2 (s : Items) : Stack.drop2 s = StackOp.specified .OP_2DROP s := by
  rcases s with _ | ⟨x2, _ | ⟨x1, s⟩⟩ <;> rfl

lemma specified_dup2 (s : Items) : Stack.dup2 s = StackOp.specified .OP_2DUP s := by
  rcases s with _ | ⟨x2, _ | ⟨x1, s⟩⟩ <;> rfl

lemma specified_drop (s : Items) : Stack.drop s = StackOp.specified .OP_DROP s := by
  cases s <;> rfl

lemma specified_dup (s : Items) : Stack.dup s = StackOp.specified .OP_DUP s := by
  cases s <;> rfl

lemma specified_nip (s : Items) : Stack.nip s = StackOp.specified .OP_NIP s := by
  rcases s with _ | ⟨x2, _ | ⟨x1, s⟩⟩ <;> rfl

lemma specified_over (s : Items) : Stack.over s = StackOp.specified .OP_OVER s := by
  rcases s with _ | ⟨x2, _ | ⟨x1, s⟩⟩ <;> rfl

lemma specified_rot (s : Items) : Stack.rot s = StackOp.specified .OP_ROT s := by
  rcases s with _ | ⟨x3, _ | ⟨x2, _ | ⟨x1, s⟩⟩⟩ <;> rfl

lemma specified_swap (s : Items) : Stack.swap s = StackOp.specified .OP_SWAP s := by
  rcases s with _ | ⟨x2, _ | ⟨x1, s⟩⟩ <;> rfl

lemma specified_tuck (s : Items) : Stack.tuck s = StackOp.specified .OP_TUCK s := by
  rcases s with _ | ⟨x2, _ | ⟨x1, s⟩⟩ <;> rfl

end stackMethods

section reversals

/-- Four items pushed back in the order they were popped are swapped in pairs only where the items
of each pair agree. -/
lemma realizes_2swap_iff (s : Items) :
    Realizes (executeStackOpcode ctx .OP_2SWAP s) (StackOp.specified .OP_2SWAP s) ↔
      StackOp.Conforms .OP_2SWAP s := by
  rcases s with _ | ⟨x4, _ | ⟨x3, _ | ⟨x2, _ | ⟨x1, s⟩⟩⟩⟩
  · exact iff_of_true (realizes_error _) trivial
  · exact iff_of_true (realizes_error _) trivial
  · exact iff_of_true (realizes_error _) trivial
  · exact iff_of_true (realizes_error _) trivial
  · change Realizes (.ok (true, x1 :: x2 :: x3 :: x4 :: s)) (some (x2 :: x1 :: x4 :: x3 :: s)) ↔
      x1 = x2 ∧ x3 = x4
    rw [realizes_ok_iff]
    simp only [List.cons.injEq, and_true]
    constructor
    · rintro ⟨h12, -, h34, -⟩
      exact ⟨h12, h34⟩
    · rintro ⟨h12, h34⟩
      exact ⟨h12, h12.symm, h34, h34.symm⟩

lemma realizes_2rot_iff (s : Items) :
    Realizes (executeStackOpcode ctx .OP_2ROT s) (StackOp.specified .OP_2ROT s) ↔
      StackOp.Conforms .OP_2ROT s := by
  rcases s with _ | ⟨x6, _ | ⟨x5, _ | ⟨x4, _ | ⟨x3, _ | ⟨x2, _ | ⟨x1, s⟩⟩⟩⟩⟩⟩
  · exact iff_of_true (realizes_error _) trivial
  · exact iff_of_true (realizes_error _) trivial
  · exact iff_of_true (realizes_error _) trivial
  · exact iff_of_true (realizes_error _) trivial
  · exact iff_of_true (realizes_error _) trivial
  · exact iff_of_true (realizes_error _) trivial
  · change Realizes (.ok (true, x1 :: x2 :: x3 :: x4 :: x5 :: x6 :: s))
        (some (x2 :: x1 :: x6 :: x5 :: x4 :: x3 :: s)) ↔ x1 = x2 ∧ x3 = x6 ∧ x4 = x5
    rw [realizes_ok_iff]
    simp only [List.cons.injEq, and_true]
    constructor
    · rintro ⟨h12, -, h36, h45, -, -⟩
      exact ⟨h12, h36, h45⟩
    · rintro ⟨h12, h36, h45⟩
      exact ⟨h12, h12.symm, h36, h45, h45.symm, h36.symm⟩

end reversals

lemma realizes_3dup (s : Items) :
    Realizes (executeStackOpcode ctx .OP_3DUP s) (StackOp.specified .OP_3DUP s) := by
  rcases s with _ | ⟨x3, _ | ⟨x2, _ | ⟨x1, s⟩⟩⟩
  · exact realizes_error _
  · exact realizes_error _
  · exact realizes_error _
  · rfl

lemma realizes_2over (s : Items) :
    Realizes (executeStackOpcode ctx .OP_2OVER s) (StackOp.specified .OP_2OVER s) := by
  rcases s with _ | ⟨x4, _ | ⟨x3, _ | ⟨x2, _ | ⟨x1, s⟩⟩⟩⟩
  · exact realizes_error _
  · exact realizes_error _
  · exact realizes_error _
  · exact realizes_error _
  · rfl

/-- The engine leaves an empty stack as it is. -/
lemma realizes_ifdup_iff (s : Items) :
    Realizes (executeStackOpcode ctx .OP_IFDUP s) (StackOp.specified .OP_IFDUP s) ↔
      StackOp.Conforms .OP_IFDUP s := by
  cases s with
  | nil =>
    apply iff_of_false
    · rintro ⟨e, he⟩
      cases he
    · exact fun h => h rfl
  | cons x s => exact iff_of_true rfl (List.cons_ne_nil x s)

lemma realizes_pick (s : Items) :
    Realizes (executeStackOpcode ctx .OP_PICK s) (StackOp.specified .OP_PICK s) := by
  cases s with
  | nil => exact realizes_error _
  | cons n s =>
    apply realizes_withDepth
    intro depth item hitem
    rw [Stack.pick, hitem]
    rfl

lemma realizes_roll (s : Items) :
    Realizes (executeStackOpcode ctx .OP_ROLL s) (StackOp.specified .OP_ROLL s) := by
  cases s with
  | nil => exact realizes_error _
  | cons n s =>
    apply realizes_withDepth
    intro depth item hitem
    rw [Stack.roll, hitem]
    rfl

lemma realizes_iff (op : StackOp) (s : Items) :
    Realizes (executeStackOpcode ctx op.opcode s) (op.specified s) ↔ op.Conforms s := by
  cases op with
  | OP_2DROP => exact iff_of_true (realizes_method _ (specified_drop2 s)) trivial
  | OP_2DUP => exact iff_of_true (realizes_method _ (specified_dup2 s)) trivial
  | OP_3DUP => exact iff_of_true (realizes_3dup ctx s) trivial
  | OP_2OVER => exact iff_of_true (realizes_2over ctx s) trivial
  | OP_2ROT => exact realizes_2rot_iff ctx s
  | OP_2SWAP => exact realizes_2swap_iff ctx s
  | OP_IFDUP => exact realizes_ifdup_iff ctx s
  | OP_DROP => exact iff_of_true (realizes_method _ (specified_drop s)) trivial
  | OP_DUP => exact iff_of_true (realizes_method _ (specified_dup s)) trivial
  | OP_NIP => exact iff_of_true (realizes_method _ (specified_nip s)) trivial
  | OP_OVER => exact iff_of_true (realizes_method _ (specified_over s)) trivial
  | OP_PICK => exact iff_of_true (realizes_pick ctx s) trivial
  | OP_ROLL => exact iff_of_true (realizes_roll ctx s) trivial
  | OP_ROT => exact iff_of_true (realizes_method _ (specified_rot s)) trivial
  | OP_SWAP => exact iff_of_true (realizes_method _ (specified_swap s)) trivial
  | OP_TUCK => exact iff_of_true (realizes_method _ (specified_tuck s)) trivial

/-- The engine fails where nothing is specified; elsewhere it leaves the specified stack, and the
rest of the machine as it was. -/
def FollowsBitcoin (op : StackOp) (m : Machine) : Prop :=
  match op.specified m.items with
  | none => ∃ e, executeOpcode ctx op.opcode m = .error e
  | some s => executeOpcode ctx op.opcode m = .ok (true, { m with items := s })

lemma executeOpcode_stackOp (op : StackOp) (m : Machine) :
    executeOpcode ctx op.opcode m =
      (executeStackOpcode ctx op.opcode m.items).map fun r => (r.1, { m with items := r.2 }) := by
  have hbind : executeOpcode ctx op.opcode m =
      executeStackOpcode ctx op.opcode m.items >>= fun r => pure (r.1, { m with items := r.2 }) := by
    cases op <;> rfl
  rw [hbind]
  cases executeStackOpcode ctx op.opcode m.items <;> rfl

lemma followsBitcoin_iff_realizes (op : StackOp) (m : Machine) :
    FollowsBitcoin ctx op m ↔
      Realizes (executeStackOpcode ctx op.opcode m.items) (op.specified m.items) := by
  unfold FollowsBitcoin
  rw [executeOpcode_stackOp]
  cases op.specified m.items with
  | none => cases executeStackOpcode ctx op.opcode m.items <;> simp [Realizes, Except.map]
  | some s =>
    cases hrun : executeStackOpcode ctx op.opcode m.items with
    | error e => simp [Realizes, Except.map]
    | ok r => simp [Realizes, Except.map, Prod.ext_iff]

theorem followsBitcoin_iff (op : StackOp) (m : Machine) :
    FollowsBitcoin ctx op m ↔ op.Conforms m.items := by
  rw [followsBitcoin_iff_realizes]
  exact realizes_iff ctx op m.items

/-- Four different items come back reversed, not with their pairs swapped. -/
theorem twoSwap_reverses :
    executeOpcode standardContext (StackOp.opcode .OP_2SWAP) (start [] [[4], [3], [2], [1]]) =
        .ok (true, start [] [[1], [2], [3], [4]]) ∧
      StackOp.specified .OP_2SWAP [[4], [3], [2], [1]] = some [[2], [1], [4], [3]] ∧
      ¬ FollowsBitcoin standardContext .OP_2SWAP (start [] [[4], [3], [2], [1]]) := by
  refine ⟨rfl, rfl, ?_⟩
  rw [followsBitcoin_iff_realizes, realizes_iff]
  rintro ⟨h12, -⟩
  exact absurd h12 (by decide)

end BerzCoin.Script
