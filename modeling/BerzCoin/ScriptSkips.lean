import BerzCoin.ScriptConditionals

/-! The engine on scripts with balanced conditionals. It jumps over a branch that is not taken by
looking at bytes, and a jump that ends behind an `OP_ENDIF` leaves its entry on the condition
stack. -/
namespace BerzCoin.Script
open Stack (Items)

/-- The depth at which `_skip_to_endif` leaves these bytes; `none` when it stops among them. -/
def scanDepth : ℕ → Bytes → Option ℕ
  | depth, [] => some depth
  | depth, b :: rest =>
    if b = Opcode.toByte .OP_IF ∨ b = Opcode.toByte .OP_NOTIF then scanDepth (depth + 1) rest
    else if b = Opcode.toByte .OP_ELSE then
      if depth = 1 then none else scanDepth depth rest
    else if b = Opcode.toByte .OP_ENDIF then
      if depth - 1 = 0 then none else scanDepth (depth - 1) rest
    else scanDepth depth rest

/-- A byte that `_skip_to_endif` takes for the opcode of a branch. -/
def IsBranchByte (b : UInt8) : Prop :=
  b = Opcode.toByte .OP_IF ∨ b = Opcode.toByte .OP_NOTIF ∨ b = Opcode.toByte .OP_ELSE ∨
    b = Opcode.toByte .OP_ENDIF

instance : DecidablePred IsBranchByte := fun _ => inferInstanceAs (Decidable (_ ∨ _))

namespace Code

/-- No length field and no pushed data holds a byte of a branch. -/
def Clean : Code → Prop
  | done => True
  | push p next => (∀ b ∈ p.payload, ¬ IsBranchByte b) ∧ next.Clean
  | plain _ next => next.Clean
  | ifThen _ body next => body.Clean ∧ next.Clean
  | ifElse _ body other next => body.Clean ∧ other.Clean ∧ next.Clean

/-- Every branch is balanced for `_skip_to_endif`, whatever the bytes it pushes. -/
def Balanced : Code → Prop
  | done => True
  | push _ next => next.Balanced
  | plain _ next => next.Balanced
  | ifThen _ body next => scanDepth 1 body.bytes = some 1 ∧ body.Balanced ∧ next.Balanced
  | ifElse _ body other next =>
      (scanDepth 1 body.bytes = some 1 ∧ body.Balanced) ∧
        (scanDepth 1 other.bytes = some 1 ∧ other.Balanced) ∧ next.Balanced

/-- Every conditional that is reached is left through its own `OP_ENDIF`: it is taken and has no
`OP_ELSE`, or it is not taken, has one, and the bytes before it are balanced. -/
def Aligned (flags : ScriptFlags) : Code → Items → Prop
  | done, _ => True
  | push p next, s => next.Aligned flags (p.item :: s)
  | plain op next, s => ∀ s', op.run s = some s' → next.Aligned flags s'
  | ifThen negated body next, s =>
      ∀ taken s₁, condition flags negated s = some (taken, s₁) →
        taken = true ∧ body.Aligned flags s₁ ∧
          ∀ s₂, body.eval flags s₁ = some s₂ → next.Aligned flags s₂
  | ifElse negated body other next, s =>
      ∀ taken s₁, condition flags negated s = some (taken, s₁) →
        taken = false ∧ scanDepth 1 body.bytes = some 1 ∧ other.Aligned flags s₁ ∧
          ∀ s₂, other.eval flags s₁ = some s₂ → next.Aligned flags s₂

end Code

section scan

lemma scanDepth_append (depth : ℕ) (a t : Bytes) :
    scanDepth depth (a ++ t) = (scanDepth depth a).bind fun d => scanDepth d t := by
  induction a generalizing depth with
  | nil => rfl
  | cons b a ih =>
    simp only [List.cons_append, scanDepth]
    split_ifs <;> simp [ih]

lemma scanDepth_of_not_branch (depth : ℕ) {a : Bytes} (h : ∀ b ∈ a, ¬ IsBranchByte b) :
    scanDepth depth a = some depth := by
  induction a with
  | nil => rfl
  | cons b a ih =>
    have hb := h b (by simp)
    simp only [IsBranchByte, not_or] at hb
    simp only [scanDepth, hb, or_self, if_false]
    exact ih fun b' hb' => h b' (by simp [hb'])

lemma Push.opcode_not_branch (p : Push) : ¬ IsBranchByte p.opcode := by
  cases p with
  | zero => decide
  | small n =>
    revert n
    decide
  | data1 data fits => exact (by decide : ¬ IsBranchByte 0x4c)
  | data2 data fits => exact (by decide : ¬ IsBranchByte 0x4d)
  | data4 data fits => exact (by decide : ¬ IsBranchByte 0x4e)

lemma PlainOp.opcode_not_branch (op : PlainOp) : ¬ IsBranchByte op.opcode.toByte := by
  cases op <;> decide

lemma scanDepth_if (depth : ℕ) (negated : Bool) (t : Bytes) :
    scanDepth depth (Code.ifByte negated :: t) = scanDepth (depth + 1) t := by
  cases negated <;> rfl

lemma scanDepth_else {depth : ℕ} (h : depth ≠ 1) (t : Bytes) :
    scanDepth depth (Opcode.toByte .OP_ELSE :: t) = scanDepth depth t := by
  have hstep : scanDepth depth (Opcode.toByte .OP_ELSE :: t) =
      if depth = 1 then none else scanDepth depth t := rfl
  rw [hstep, if_neg h]

lemma scanDepth_endif {depth : ℕ} (h : depth - 1 ≠ 0) (t : Bytes) :
    scanDepth depth (Opcode.toByte .OP_ENDIF :: t) = scanDepth (depth - 1) t := by
  have hstep : scanDepth depth (Opcode.toByte .OP_ENDIF :: t) =
      if depth - 1 = 0 then none else scanDepth (depth - 1) t := rfl
  rw [hstep, if_neg h]

/-- A clean script is balanced for the scan as well. -/
lemma Code.Clean.scanDepth {code : Code} (h : code.Clean) {depth : ℕ} (hdepth : depth ≠ 0) :
    scanDepth depth code.bytes = some depth := by
  induction code generalizing depth with
  | done => rfl
  | push p next ih =>
    have hfirst : Script.scanDepth depth (p.opcode :: p.payload) = some depth := by
      refine scanDepth_of_not_branch depth ?_
      intro b hb
      rcases List.mem_cons.1 hb with rfl | hb
      · exact p.opcode_not_branch
      · exact h.1 b hb
    rw [Code.bytes, ← List.cons_append, scanDepth_append, hfirst]
    exact ih h.2 hdepth
  | plain op next ih =>
    have hfirst : Script.scanDepth depth [op.opcode.toByte] = some depth := by
      refine scanDepth_of_not_branch depth ?_
      simpa using op.opcode_not_branch
    rw [Code.bytes, ← List.singleton_append, scanDepth_append, hfirst]
    exact ih h hdepth
  | ifThen negated body next ihBody ihNext =>
    rw [Code.bytes, scanDepth_if, scanDepth_append, ihBody h.1 (by omega), Option.bind_some,
      scanDepth_endif (by omega)]
    exact ihNext h.2 hdepth
  | ifElse negated body other next ihBody ihOther ihNext =>
    rw [Code.bytes, scanDepth_if, scanDepth_append, ihBody h.1 (by omega), Option.bind_some,
      scanDepth_else (by omega), scanDepth_append, ihOther h.2.1 (by omega), Option.bind_some,
      scanDepth_endif (by omega)]
    exact ihNext h.2.2 hdepth

lemma Code.Clean.balanced {code : Code} (h : code.Clean) : code.Balanced := by
  induction code with
  | done => trivial
  | push p next ih => exact ih h.2
  | plain op next ih => exact ih h
  | ifThen negated body next ihBody ihNext =>
    exact ⟨h.1.scanDepth one_ne_zero, ihBody h.1, ihNext h.2⟩
  | ifElse negated body other next ihBody ihOther ihNext =>
    exact ⟨⟨h.1.scanDepth one_ne_zero, ihBody h.1⟩,
      ⟨h.2.1.scanDepth one_ne_zero, ihOther h.2.1⟩, ihNext h.2.2⟩

end scan

/-! One iteration of the engine's loop on each kind of opcode. -/
section step
variable (ctx : Context) (m : Machine)

/-- The part of an iteration before `_execute_opcode`. -/
def counted (op : Opcode) : Except ScriptError (Bool × Machine) :=
  if MAX_OPS_PER_SCRIPT < m.opCount + 1 then .error .tooManyOpcodes
  else executeOpcode ctx op { m with opCount := m.opCount + 1 } >>= thenLimits

lemma step_if (negated : Bool) :
    step ctx (Code.ifByte negated) m = counted ctx m (if negated then .OP_NOTIF else .OP_IF) := by
  cases negated <;> rfl

lemma popCondition_cons {top : Bytes} {s : Items} (hitems : m.items = top :: s) (op : Opcode) :
    popCondition ctx op m =
      if ctx.flags.isEnabled ScriptFlags.VERIFY_MINIMALIF && top ≠ [] && top ≠ [0x01] then
        .error .minimalIfViolation
      else .ok (castToBool top, { m with items := s }) := by
  simp only [popCondition, hitems, popOr, bind, Except.bind]
  split_ifs <;> rfl

lemma executeOpcode_if (negated : Bool) :
    (condition ctx.flags negated m.items = none ∧
        ∃ e, executeOpcode ctx (if negated then .OP_NOTIF else .OP_IF) m = .error e) ∨
      ∃ taken s, condition ctx.flags negated m.items = some (taken, s) ∧
        executeOpcode ctx (if negated then .OP_NOTIF else .OP_IF) m =
          .ok (true, enterBranch taken { m with items := s }) := by
  have hexecute : executeOpcode ctx (if negated then .OP_NOTIF else .OP_IF) m =
      (popCondition ctx (if negated then .OP_NOTIF else .OP_IF) m).map fun p =>
        (true, enterBranch (p.1 != negated) p.2) := by
    cases negated with
    | false =>
      simp only [Bool.false_eq_true, if_false, executeOpcode]
      cases popCondition ctx .OP_IF m <;> simp [bind, Except.bind, pure, Except.pure, Except.map]
    | true =>
      simp only [if_true, executeOpcode]
      cases popCondition ctx .OP_NOTIF m <;> simp [bind, Except.bind, pure, Except.pure, Except.map]
  rw [hexecute]
  cases hitems : m.items with
  | nil => exact Or.inl ⟨rfl, _, by rw [popCondition, hitems]; rfl⟩
  | cons top s =>
    rw [popCondition_cons ctx m hitems, condition]
    split_ifs
    · exact Or.inl ⟨rfl, _, rfl⟩
    · exact Or.inr ⟨_, s, rfl, rfl⟩

lemma thenLimits_cases : (∃ e, thenLimits (true, m) = .error e) ∨ thenLimits (true, m) = .ok (true, m) := by
  simp only [thenLimits]
  cases enforceLimits m with
  | error e => exact Or.inl ⟨e, rfl⟩
  | ok u => exact Or.inr rfl

end step

section loop
variable (ctx : Context)

/-- A run from the first machine comes to the second one, however much fuel is left over. -/
def EngineLeads (m m' : Machine) : Prop :=
  ∀ k, m.rest.length ≤ k → ∃ k', m'.rest.length ≤ k' ∧ loop ctx k m = loop ctx k' m'

def EngineRefuses (m : Machine) : Prop :=
  ∀ k, m.rest.length ≤ k → ∀ n, loop ctx k m ≠ .ok (some n)

lemma engineChains : Chains (EngineLeads ctx) (EngineRefuses ctx) where
  trans a b c h h' := by
    intro k hk
    obtain ⟨k', hk', heq⟩ := h k hk
    obtain ⟨k'', hk'', heq'⟩ := h' k' hk'
    exact ⟨k'', hk'', heq.trans heq'⟩
  refuses a b h h' := by
    intro k hk n
    obtain ⟨k', hk', heq⟩ := h k hk
    rw [heq]
    exact h' k' hk' n

variable {ctx}

lemma EngineLeads.refl (m : Machine) : EngineLeads ctx m m := fun k hk => ⟨k, hk, rfl⟩

lemma EngineLeads.step {m m' : Machine} {b : UInt8} {r : Bytes} (hrest : m.rest = b :: r)
    (h : Script.step ctx b { m with rest := r } = .ok (true, m')) : EngineLeads ctx m m' := by
  intro k hk
  rw [hrest, List.length_cons] at hk
  obtain ⟨k', rfl⟩ : ∃ k', k = k' + 1 := ⟨k - 1, by omega⟩
  have hlength : m'.rest.length ≤ r.length := step_rest_length_le h
  exact ⟨k', by omega, by simp [loop, hrest, h, bind, Except.bind]⟩

lemma EngineRefuses.step {m : Machine} {b : UInt8} {r : Bytes} (hrest : m.rest = b :: r)
    (h : ∃ e, Script.step ctx b { m with rest := r } = .error e) : EngineRefuses ctx m := by
  obtain ⟨e, h⟩ := h
  intro k hk n
  rw [hrest, List.length_cons] at hk
  obtain ⟨k', rfl⟩ : ∃ k', k = k' + 1 := ⟨k - 1, by omega⟩
  simp [loop, hrest, h, bind, Except.bind]

lemma counted_error {m : Machine} {op : Opcode}
    (h : ∃ e, executeOpcode ctx op { m with opCount := m.opCount + 1 } = .error e) :
    ∃ e, counted ctx m op = .error e := by
  obtain ⟨e, h⟩ := h
  rw [counted, h]
  split_ifs
  · exact ⟨_, rfl⟩
  · exact ⟨e, rfl⟩

/-- An opcode whose execution goes on is refused for its limits or leads on. -/
lemma counted_cases {m n : Machine} {op : Opcode}
    (h : executeOpcode ctx op { m with opCount := m.opCount + 1 } = .ok (true, n)) :
    (∃ e, counted ctx m op = .error e) ∨ counted ctx m op = .ok (true, n) := by
  rw [counted, h]
  split_ifs
  · exact Or.inl ⟨_, rfl⟩
  · exact thenLimits_cases n

variable (ctx)

variable {ctx}

variable (ctx)

/-- A run is refused, or it comes to the bytes `t` with entries `X` above the condition stack `S`;
where there are none, the stack satisfies `P`. -/
def Arrives (m : Machine) (t : Bytes) (S : List Bool) (P : Items → Prop) : Prop :=
  EngineRefuses ctx m ∨
    ∃ X s c, EngineLeads ctx m ⟨t, s, m.altstack, X ++ S, c⟩ ∧ (X = [] → P s)

variable {ctx} {m m' : Machine} {t t' : Bytes} {S : List Bool} {P Q : Items → Prop}

lemma Arrives.lead (h : EngineLeads ctx m m') (halt : m'.altstack = m.altstack)
    (ha : Arrives ctx m' t S P) : Arrives ctx m t S P := by
  rcases ha with href | ⟨X, s, c, hlead, hP⟩
  · exact Or.inl ((engineChains ctx).refuses _ _ h href)
  · rw [halt] at hlead
    exact Or.inr ⟨X, s, c, (engineChains ctx).trans _ _ _ h hlead, hP⟩

/-- An entry that stays on the condition stack tells nothing about the stack. -/
lemma Arrives.forget {Y : List Bool} (hY : Y ≠ []) (h : Arrives ctx m t (Y ++ S) P) :
    Arrives ctx m t S Q := by
  rcases h with href | ⟨X, s, c, hlead, -⟩
  · exact Or.inl href
  · rw [← List.append_assoc] at hlead
    exact Or.inr ⟨X ++ Y, s, c, hlead, fun hnil => absurd (List.append_eq_nil_iff.1 hnil).2 hY⟩

/-- One part after the other. -/
lemma Arrives.andThen (h : Arrives ctx m t S P)
    (hsame : ∀ s c, P s → Arrives ctx ⟨t, s, m.altstack, S, c⟩ t' S Q)
    (hleft : ∀ x X s c, Arrives ctx ⟨t, s, m.altstack, x :: X ++ S, c⟩ t' S Q) :
    Arrives ctx m t' S Q := by
  rcases h with href | ⟨X, s, c, hlead, hP⟩
  · exact Or.inl href
  · cases X with
    | nil => exact (hsame s c (hP rfl)).lead hlead rfl
    | cons x X => exact (hleft x X s c).lead hlead rfl

lemma Arrives.mono (h : Arrives ctx m t S P) (hPQ : ∀ s, P s → Q s) : Arrives ctx m t S Q := by
  rcases h with href | ⟨X, s, c, hlead, hP⟩
  · exact Or.inl href
  · exact Or.inr ⟨X, s, c, hlead, fun hX => hPQ s (hP hX)⟩

lemma Arrives.if {negated : Bool} {r : Bytes} (hbytes : m.rest = Code.ifByte negated :: r)
    (hbranch : ∀ taken s, condition ctx.flags negated m.items = some (taken, s) →
      Arrives ctx (enterBranch taken { m with rest := r, items := s, opCount := m.opCount + 1 }) t S P) :
    Arrives ctx m t S P := by
  have hread := step_if ctx { m with rest := r } negated
  rcases executeOpcode_if ctx { m with rest := r, opCount := m.opCount + 1 } negated with
    ⟨-, herror⟩ | ⟨taken, s, hcond, hok⟩
  · refine Or.inl (EngineRefuses.step hbytes ?_)
    rw [hread]
    exact counted_error herror
  rcases @counted_cases ctx { m with rest := r } _ _ hok with herror | hok
  · refine Or.inl (EngineRefuses.step hbytes ?_)
    rw [hread]
    exact herror
  · exact (hbranch taken s hcond).lead (EngineLeads.step hbytes (hread.trans hok)) rfl

/-- An `OP_ELSE` turns round the entry on top, whichever it is. -/
lemma Arrives.else {x : Bool} {Y : List Bool} {r : Bytes} {s alt : Items} {c : ℕ}
    (hbranch : Arrives ctx (enterBranch (!x) ⟨r, s, alt, Y, c + 1⟩) t S P) :
    Arrives ctx ⟨Opcode.toByte .OP_ELSE :: r, s, alt, x :: Y, c⟩ t S P := by
  have hexecute : executeOpcode ctx .OP_ELSE ⟨r, s, alt, x :: Y, c + 1⟩ =
      .ok (true, enterBranch (!x) ⟨r, s, alt, Y, c + 1⟩) := rfl
  rcases @counted_cases ctx ⟨r, s, alt, x :: Y, c⟩ _ .OP_ELSE hexecute with herror | hok
  · exact Or.inl (EngineRefuses.step rfl herror)
  · exact hbranch.lead (EngineLeads.step rfl hok) rfl

/-- What follows a part, when every run over it arrives. -/
lemma Arrives.next {next : Code} (h : Arrives ctx m (next.bytes ++ t) S P)
    (hnext : ∀ m' : Machine, m'.rest = next.bytes ++ t → Arrives ctx m' t m'.ifStack fun s =>
      next.Aligned ctx.flags m'.items ∧ next.eval ctx.flags m'.items = some s) :
    Arrives ctx m t S fun s' =>
      ∃ s, P s ∧ next.Aligned ctx.flags s ∧ next.eval ctx.flags s = some s' := by
  refine h.andThen ?_ ?_
  · intro s c hs
    exact (hnext ⟨next.bytes ++ t, s, m.altstack, S, c⟩ rfl).mono fun s' hs' => ⟨s, hs, hs'⟩
  · intro x X s c
    exact (hnext ⟨next.bytes ++ t, s, m.altstack, x :: X ++ S, c⟩ rfl).forget (List.cons_ne_nil x X)

end loop

section execute
variable {ctx : Context} {code : Code} {stack : Items}

variable (ctx code stack)

end execute

section examples

end examples

end BerzCoin.Script
