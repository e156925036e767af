import BerzCoin.ScriptBoundary

/-! What the engine holds at any moment of a run. The limit on stack items is enforced after the
opcodes that are counted and not after pushes, so the stacks are bounded by the limit and the
bytes of the script together. -/
namespace BerzCoin.Script
open Stack (Items)

/-- The bounds in a run of a script of `total` bytes on a stack of `base` items. -/
structure Machine.Bounded (base total : ℕ) (m : Machine) : Prop where
  left : m.rest.length ≤ total
  held : m.items.length + m.altstack.length + m.rest.length ≤ max MAX_STACK_ITEMS base + total
  small : ItemsSmall m
  altSmall : ∀ item ∈ m.altstack, item.length ≤ MAX_SCRIPT_ELEMENT_SIZE
  ops : m.opCount ≤ MAX_OPS_PER_SCRIPT
  moved : m.altstack.length ≤ m.opCount
  nested : m.ifStack.length ≤ m.opCount

variable {ctx : Context} {op : Opcode} {m n : Machine} {base total : ℕ}

lemma popCondition_items {c : Bool} (h : popCondition ctx op m = .ok (c, n)) :
    ∃ s, n = { m with items := s } := by
  obtain ⟨⟨top, s⟩, -, h⟩ := except_bind_eq_ok h
  simp only at h
  split_ifs at h
  · cases h
  · cases h
    exact ⟨s, rfl⟩

/-- A push adds one item. -/
lemma handlePush_item (h : handlePush op m = .ok n) :
    ∃ data t, t.length ≤ m.rest.length ∧ n = { m with rest := t, items := data :: m.items } := by
  have hrest := handlePush_rest_length_le h
  have hdata (width : ℕ) (h : pushData op width m = .ok n) :
      ∃ data t, n = { m with rest := t, items := data :: m.items } := by
    obtain ⟨length, -, -, -, hn⟩ := pushData_eq_ok h
    exact ⟨_, _, hn⟩
  have hone : ∃ data t, n = { m with rest := t, items := data :: m.items } := by
    unfold handlePush at h
    split at h
    · exact hdata 1 h
    · exact hdata 2 h
    · exact hdata 4 h
    · cases h
      exact ⟨_, m.rest, rfl⟩
    · cases h
      exact ⟨_, m.rest, rfl⟩
  obtain ⟨data, t, rfl⟩ := hone
  exact ⟨data, t, hrest, rfl⟩

/-- What an opcode may do to the alternative stack and to the open conditionals. -/
structure Machine.Opens (m n : Machine) : Prop where
  opCount : n.opCount = m.opCount
  nested : n.ifStack.length ≤ m.ifStack.length + 1
  moved : n.altstack.length ≤ m.altstack.length + 1
  altstack : ∀ item ∈ n.altstack, item ∈ m.items ∨ item ∈ m.altstack

lemma Machine.Opens.sameAltstack (hops : n.opCount = m.opCount) (halt : n.altstack = m.altstack)
    (hnested : n.ifStack.length ≤ m.ifStack.length + 1) : m.Opens n where
  opCount := hops
  nested := hnested
  moved := by rw [halt]; exact Nat.le_succ _
  altstack item hitem := by
    rw [halt] at hitem
    exact .inr hitem

lemma executeOpcode_opens {c : Bool} (h : executeOpcode ctx op m = .ok (c, n)) : m.Opens n := by
  unfold executeOpcode at h
  split at h
  · obtain ⟨⟨condition, m'⟩, hcondition, h⟩ := except_bind_eq_ok h
    obtain ⟨s, rfl⟩ := popCondition_items hcondition
    cases h
    exact .sameAltstack rfl rfl le_rfl
  · obtain ⟨⟨condition, m'⟩, hcondition, h⟩ := except_bind_eq_ok h
    obtain ⟨s, rfl⟩ := popCondition_items hcondition
    cases h
    exact .sameAltstack rfl rfl le_rfl
  · cases hif : m.ifStack with
    | nil => simp [hif] at h
    | cons condition conditions =>
      simp only [hif] at h
      cases h
      exact .sameAltstack rfl rfl (by simp [enterBranch, hif])
  · cases hif : m.ifStack with
    | nil => simp [hif] at h
    | cons condition conditions =>
      simp only [hif] at h
      cases h
      exact .sameAltstack rfl rfl (by simp [hif]; omega)
  · cases hitems : m.items with
    | nil => simp [hitems] at h
    | cons a s =>
      simp only [hitems] at h
      cases h
      refine ⟨rfl, Nat.le_succ _, le_rfl, fun item hitem => ?_⟩
      rcases List.mem_cons.1 hitem with rfl | hitem
      · exact .inl (by rw [hitems]; exact List.mem_cons_self ..)
      · exact .inr hitem
  · cases halt : m.altstack with
    | nil => simp [halt] at h
    | cons a alt =>
      simp only [halt] at h
      cases h
      refine ⟨rfl, Nat.le_succ _, ?_, fun item hitem => .inr ?_⟩
      · simp only [halt, List.length_cons]
        omega
      · rw [halt]
        exact List.mem_cons_of_mem _ hitem
  · obtain ⟨⟨continues, s⟩, -, h⟩ := except_bind_eq_ok h
    cases h
    exact .sameAltstack rfl rfl (Nat.le_succ _)

lemma start_bounded {script : Bytes} {stack : Items}
    (hstack : ∀ item ∈ stack, item.length ≤ MAX_SCRIPT_ELEMENT_SIZE) :
    (start script stack).Bounded stack.length script.length where
  left := le_rfl
  held := by simp [start]
  small := hstack
  altSmall item hitem := by cases hitem
  ops := Nat.zero_le _
  moved := le_rfl
  nested := le_rfl

/-- One more iteration keeps the bounds: a push has used up a byte for its item, and after any other
opcode the limits were enforced. -/
lemma step_bounded {b : UInt8} {r : Bytes} (hm : m.Bounded base total) (hr : m.rest = b :: r)
    (h : step ctx b { m with rest := r } = .ok (true, n)) : n.Bounded base total := by
  obtain ⟨hleft, hheld, hsmall, haltSmall, hops, hmoved, hnested⟩ := hm
  rw [hr, List.length_cons] at hleft hheld
  have hn := step_itemsSmall (show ItemsSmall { m with rest := r } from hsmall) h
  have hrest := step_rest_length_le h
  obtain ⟨op, -, ⟨-, -, hpush⟩ | ⟨-, -, hcount, hexecute, hlimits⟩⟩ := step_eq_ok h
  · obtain ⟨data, t, ht, rfl⟩ := handlePush_item hpush
    refine ⟨?_, ?_, hn, haltSmall, hops, hmoved, hnested⟩
    · simp only at ht ⊢
      omega
    · simp only [List.length_cons] at ht ⊢
      omega
  · obtain ⟨hstacks, -⟩ := enforceLimits_eq_ok (hlimits rfl)
    obtain ⟨hopCount, hopen, halt, hfrom⟩ := executeOpcode_opens hexecute
    simp only at hrest hopCount hopen halt hfrom hcount
    refine ⟨by omega, by omega, hn, fun item hitem => ?_, by omega, by omega, by omega⟩
    rcases hfrom item hitem with hitem | hitem
    · exact hsmall item hitem
    · exact haltSmall item hitem

/-- Between any two opcodes of any run the stacks together have no more items than the limit, or the
initial stack where that is larger, and one for each byte read; no item is larger than 520 bytes,
no more than 201 opcodes were counted, and no more than these have moved items to the
alternative stack or opened conditionals. -/
theorem loop_bounded (ctx : Context) (script : Bytes) (stack : Items)
    (hstack : ∀ item ∈ stack, item.length ≤ MAX_SCRIPT_ELEMENT_SIZE) (k : ℕ) (m : Machine)
    (h : loop ctx k (start script stack) = .ok (some m)) :
    m.Bounded stack.length script.length := by
  have hrun : ∀ k m', m'.Bounded stack.length script.length → loop ctx k m' = .ok (some m) →
      m.Bounded stack.length script.length := by
    intro k
    induction k with
    | zero =>
      intro m' hm' h
      cases h
      exact hm'
    | succ k ih =>
      intro m' hm' h
      cases hr : m'.rest with
      | nil =>
        rw [loop_nil hr] at h
        cases h
        exact hm'
      | cons b r =>
        obtain ⟨next, hs, h⟩ := (loop_cons hr).1 h
        exact ih next (step_bounded hm' hr hs) h
  exact hrun k _ (start_bounded hstack) h

/-- An opcode and the push before it. -/
theorem loop_bounded_dup : (⟨[], [[1], [1]], [], [], 1⟩ : Machine).Bounded 0 2 :=
  loop_bounded standardContext [Opcode.toByte .OP_1, Opcode.toByte .OP_DUP] [] (by simp) 2 _ rfl

/-- The bytes of the script count: a script of pushes alone leaves an item for each of them. -/
theorem loop_onlyPushes (ctx : Context) (count : ℕ) (stack : Items) :
    loop ctx count (start (List.replicate count (Opcode.toByte .OP_1)) stack) =
      .ok (some ⟨[], List.replicate count [1] ++ stack, [], [], 0⟩) := by
  induction count generalizing stack with
  | zero => rfl
  | succ count ih =>
    have hnext := ih ([1] :: stack)
    have hitems : List.replicate count ([1] : Bytes) ++ [1] :: stack =
        List.replicate (count + 1) [1] ++ stack := by
      rw [List.replicate_succ', List.append_assoc, List.singleton_append]
    rw [hitems] at hnext
    refine (loop_cons (b := Opcode.toByte .OP_1) (r := List.replicate count _) rfl).2 ⟨_, ?_, hnext⟩
    rfl

end BerzCoin.Script
