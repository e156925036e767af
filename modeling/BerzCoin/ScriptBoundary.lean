import BerzCoin.ScriptVerify

/-! Running `scriptSig ++ scriptPubkey` compared with running the two scripts in turn. A
run of the concatenation is cut where the bytes of `scriptSig` are used up. Up to there
the bytes behind the cut are a frame; after it the frame is the alternative stack and the
opcode count that `scriptSig` left. -/
namespace BerzCoin.Script
open Stack (Items)

namespace Machine

/-- Further bytes behind the script. -/
def append (m : Machine) (t : Bytes) : Machine := { m with rest := m.rest ++ t }

/-- Further items below the alternative stack and further opcodes already counted. -/
def lift (m : Machine) (alt : Items) (count : ℕ) : Machine :=
  { m with altstack := m.altstack ++ alt, opCount := m.opCount + count }

@[simp] lemma append_rest (m : Machine) (t : Bytes) : (m.append t).rest = m.rest ++ t := rfl
@[simp] lemma append_items (m : Machine) (t : Bytes) : (m.append t).items = m.items := rfl
@[simp] lemma append_altstack (m : Machine) (t : Bytes) : (m.append t).altstack = m.altstack := rfl
@[simp] lemma append_ifStack (m : Machine) (t : Bytes) : (m.append t).ifStack = m.ifStack := rfl
@[simp] lemma append_opCount (m : Machine) (t : Bytes) : (m.append t).opCount = m.opCount := rfl
@[simp] lemma lift_rest (m : Machine) (alt : Items) (c : ℕ) : (m.lift alt c).rest = m.rest := rfl
@[simp] lemma lift_items (m : Machine) (alt : Items) (c : ℕ) : (m.lift alt c).items = m.items := rfl
@[simp] lemma lift_altstack (m : Machine) (alt : Items) (c : ℕ) :
    (m.lift alt c).altstack = m.altstack ++ alt := rfl
@[simp] lemma lift_ifStack (m : Machine) (alt : Items) (c : ℕ) :
    (m.lift alt c).ifStack = m.ifStack := rfl
@[simp] lemma lift_opCount (m : Machine) (alt : Items) (c : ℕ) :
    (m.lift alt c).opCount = m.opCount + c := rfl

end Machine

lemma skipToEndif_length_le (depth : ℕ) (r : Bytes) : (skipToEndif depth r).length ≤ r.length := by
  induction r generalizing depth with
  | nil => simp [skipToEndif]
  | cons b r ih =>
    simp only [skipToEndif, List.length_cons]
    split_ifs <;> first | omega | exact (ih _).trans (Nat.le_succ _)

lemma skipToEndif_length_lt (depth : ℕ) {r : Bytes} (h : r ≠ []) :
    (skipToEndif depth r).length < r.length := by
  cases r with
  | nil => exact absurd rfl h
  | cons b r =>
    simp only [skipToEndif, List.length_cons]
    split_ifs <;> first | omega | exact Nat.lt_succ_of_le (skipToEndif_length_le _ _)

/-- A skip stops inside the script or runs past its end into the bytes behind it. -/
lemma skipToEndif_append (depth : ℕ) (r t : Bytes) :
    skipToEndif depth (r ++ t) = skipToEndif depth r ++ t ∨
      skipToEndif depth r = [] ∧ (skipToEndif depth (r ++ t)).length < t.length := by
  induction r generalizing depth with
  | nil =>
    by_cases ht : t = []
    · left
      simp [ht, skipToEndif]
    · right
      exact ⟨rfl, skipToEndif_length_lt depth ht⟩
  | cons b r ih =>
    simp only [List.cons_append, skipToEndif]
    split_ifs
    · exact ih _
    · exact Or.inl rfl
    · exact ih _
    · exact Or.inl rfl
    · exact ih _
    · exact ih _

/-- How a step on a script compares with the step on the longer script: it is the same step,
it fails on both, or the longer one reads bytes from behind the end. In the last case the
shorter one fails or ends inside an open conditional. -/
def StepExtends (t : Bytes) (short long : Except ScriptError (Bool × Machine)) : Prop :=
  (∃ c m, short = .ok (c, m) ∧ long = .ok (c, m.append t)) ∨
  (∃ e e', short = .error e ∧ long = .error e') ∨
  (∃ c n, long = .ok (c, n) ∧ n.rest.length < t.length ∧
    ∀ c' m, short = .ok (c', m) →
      m.rest = [] ∧ m.ifStack ≠ [] ∧ c' = c ∧ enforceLimits m = enforceLimits n)

lemma StepExtends.same {t : Bytes} {c : Bool} {m : Machine} :
    StepExtends t (.ok (c, m)) (.ok (c, m.append t)) := Or.inl ⟨c, m, rfl, rfl⟩

lemma StepExtends.fails {t : Bytes} {e e' : ScriptError} :
    StepExtends t (.error e) (.error e') := Or.inr (Or.inl ⟨e, e', rfl, rfl⟩)

lemma enterBranch_append (t : Bytes) (c : Bool) (m : Machine) :
    StepExtends t (.ok (true, enterBranch c m)) (.ok (true, enterBranch c (m.append t))) := by
  cases c with
  | true => exact StepExtends.same
  | false =>
    rcases skipToEndif_append 1 m.rest t with h | ⟨hnil, hlt⟩
    · have : enterBranch false (m.append t) = (enterBranch false m).append t := by
        simp [enterBranch, Machine.append, h]
      rw [this]
      exact StepExtends.same
    · refine Or.inr (Or.inr ⟨true, _, rfl, ?_, ?_⟩)
      · simpa [enterBranch] using hlt
      · rintro c' m' h
        cases h
        exact ⟨by simpa [enterBranch] using hnil, by simp [enterBranch], rfl, rfl⟩

lemma popCondition_append (ctx : Context) (op : Opcode) (t : Bytes) (m : Machine) :
    popCondition ctx op (m.append t) =
      (popCondition ctx op m).map fun p => (p.1, p.2.append t) := by
  unfold popCondition
  cases hm : m.items with
  | nil => simp [hm, popOr, Except.map, bind, Except.bind]
  | cons a s =>
    simp only [Machine.append_items, hm, popOr, bind, Except.bind]
    split_ifs <;> rfl

lemma executeOpcode_append (ctx : Context) (op : Opcode) (t : Bytes) (m : Machine) :
    StepExtends t (executeOpcode ctx op m) (executeOpcode ctx op (m.append t)) := by
  unfold executeOpcode
  split
  · rw [popCondition_append]
    cases popCondition ctx .OP_IF m with
    | error e => exact StepExtends.fails
    | ok p => exact enterBranch_append t p.1 p.2
  · rw [popCondition_append]
    cases popCondition ctx .OP_NOTIF m with
    | error e => exact StepExtends.fails
    | ok p => exact enterBranch_append t (!p.1) p.2
  · simp only [Machine.append_ifStack]
    cases m.ifStack with
    | nil => exact StepExtends.fails
    | cons c cs => exact enterBranch_append t (!c) { m with ifStack := cs }
  · simp only [Machine.append_ifStack]
    cases m.ifStack with
    | nil => exact StepExtends.fails
    | cons c cs => exact StepExtends.same
  · simp only [Machine.append_items]
    cases m.items with
    | nil => exact StepExtends.fails
    | cons a s => exact StepExtends.same
  · simp only [Machine.append_altstack]
    cases m.altstack with
    | nil => exact StepExtends.fails
    | cons a alt => exact StepExtends.same
  · simp only [Machine.append_items]
    cases executeStackOpcode ctx op m.items with
    | error e => exact StepExtends.fails
    | ok p => exact StepExtends.same

lemma StepExtends.limits {t : Bytes} {short long : Except ScriptError (Bool × Machine)}
    (h : StepExtends t short long) : StepExtends t (short >>= thenLimits) (long >>= thenLimits) := by
  rcases h with ⟨c, m, rfl, rfl⟩ | ⟨e, e', rfl, rfl⟩ | ⟨c, n, rfl, hlt, hshort⟩
  · cases c with
    | false => exact StepExtends.same
    | true =>
      have happ : enforceLimits (m.append t) = enforceLimits m := rfl
      simp only [bind, Except.bind, thenLimits, happ]
      cases enforceLimits m with
      | error e => exact StepExtends.fails
      | ok u => exact StepExtends.same
  · exact StepExtends.fails
  · cases c with
    | false =>
      refine Or.inr (Or.inr ⟨false, n, rfl, hlt, ?_⟩)
      rintro c' m h
      cases short with
      | error e => cases h
      | ok p =>
        obtain ⟨hrest, hif, hc, hlim⟩ := hshort p.1 p.2 rfl
        obtain ⟨c, m'⟩ := p
        subst hc
        cases h
        exact ⟨hrest, hif, rfl, hlim⟩
    | true =>
      cases hn : enforceLimits n with
      | error e =>
        have hlong : (Except.ok (true, n) >>= thenLimits) = .error e := by
          simp [bind, Except.bind, thenLimits, hn, Except.map]
        rw [hlong]
        cases short with
        | error e' => exact StepExtends.fails
        | ok p =>
          obtain ⟨hrest, hif, hc, hlim⟩ := hshort p.1 p.2 rfl
          obtain ⟨c, m'⟩ := p
          simp only at hc hlim
          subst hc
          simp only [bind, Except.bind, thenLimits, hlim, hn]
          exact StepExtends.fails
      | ok u =>
        refine Or.inr (Or.inr ⟨true, n, ?_, hlt, ?_⟩)
        · simp [bind, Except.bind, thenLimits, hn, Except.map]
        · rintro c' m h
          cases short with
          | error e => cases h
          | ok p =>
            obtain ⟨hrest, hif, hc, hlim⟩ := hshort p.1 p.2 rfl
            obtain ⟨c, m'⟩ := p
            simp only at hc hlim
            subst hc
            simp only [bind, Except.bind, thenLimits, hlim, hn, Except.map] at h
            cases h
            exact ⟨hrest, hif, rfl, by rw [hlim, hn]⟩

/-- What a push that succeeds does, whatever its length field is. -/
lemma pushData_eq_ok {op : Opcode} {width : ℕ} {m n : Machine} (h : pushData op width m = .ok n) :
    ∃ length, width + length ≤ m.rest.length ∧ length ≤ MAX_SCRIPT_ELEMENT_SIZE ∧
      length = leNat (m.rest.take width) ∧
      n = { m with
        rest := (m.rest.drop width).drop length
        items := (m.rest.drop width).take length :: m.items } := by
  unfold pushData at h
  simp only at h
  split at h
  · cases h
  · split at h
    · cases h
    · split at h
      · cases h
      · refine ⟨leNat (m.rest.take width), ?_, by omega, rfl, by simpa using h.symm⟩
        rw [List.length_drop] at *
        omega

lemma pushData_append (op : Opcode) (width : ℕ) (t : Bytes) (m : Machine) :
    StepExtends t ((pushData op width m).map fun n => (true, n))
      ((pushData op width (m.append t)).map fun n => (true, n)) := by
  by_cases hw : m.rest.length < width
  · -- the length field itself reaches past the end
    have hshort : pushData op width m = .error (.missingLength op) := by simp [pushData, hw]
    rw [hshort]
    cases hlong : pushData op width (m.append t) with
    | error e => exact StepExtends.fails
    | ok n =>
      obtain ⟨length, hle, -, -, rfl⟩ := pushData_eq_ok hlong
      refine Or.inr (Or.inr ⟨true, _, rfl, ?_, fun _ _ h => nomatch h⟩)
      simp only [Machine.append_rest, List.length_drop, List.length_append] at *
      omega
  · set length := leNat (m.rest.take width) with hl
    have htake : (m.rest ++ t).take width = m.rest.take width :=
      List.take_append_of_le_length (by omega)
    have hdrop : (m.rest ++ t).drop width = m.rest.drop width ++ t :=
      List.drop_append_of_le_length (by omega)
    by_cases hlen : (m.rest.drop width).length < length
    · have hshort : pushData op width m = .error (.truncated op) := by
        simp only [pushData, hw, if_false, ← hl, hlen, if_true]
      rw [hshort]
      cases hlong : pushData op width (m.append t) with
      | error e => exact StepExtends.fails
      | ok n =>
        obtain ⟨length', hle, -, heq, rfl⟩ := pushData_eq_ok hlong
        rw [Machine.append_rest, htake, ← hl] at heq
        refine Or.inr (Or.inr ⟨true, _, rfl, ?_, fun _ _ h => nomatch h⟩)
        simp only [Machine.append_rest, List.length_drop, List.length_append] at *
        omega
    · have hw' : ¬ (m.rest ++ t).length < width := by rw [List.length_append]; omega
      have hlen' : ¬ (m.rest.drop width ++ t).length < length := by
        rw [List.length_append]
        omega
      simp only [pushData, Machine.append_rest, htake, hdrop, ← hl, hw, hw', hlen, hlen', if_false]
      split_ifs
      · exact StepExtends.fails
      · refine Or.inl ⟨true, _, rfl, ?_⟩
        simp only [Except.map, Machine.append, not_lt] at *
        rw [List.drop_append_of_le_length hlen, List.take_append_of_le_length hlen]

lemma handlePush_append (op : Opcode) (t : Bytes) (m : Machine) :
    StepExtends t ((handlePush op m).map fun n => (true, n))
      ((handlePush op (m.append t)).map fun n => (true, n)) := by
  unfold handlePush
  split
  · exact pushData_append _ 1 t m
  · exact pushData_append _ 2 t m
  · exact pushData_append _ 4 t m
  · exact StepExtends.same
  · exact StepExtends.same

lemma step_append (ctx : Context) (b : UInt8) (t : Bytes) (m : Machine) :
    StepExtends t (step ctx b m) (step ctx b (m.append t)) := by
  unfold step
  cases Opcode.ofByte b with
  | none => exact StepExtends.fails
  | some op =>
    simp only
    split_ifs with hpush hdis hcount hcount'
    · exact handlePush_append op t m
    · exact StepExtends.fails
    · exact StepExtends.fails
    · exact absurd hcount hcount'
    · exact absurd ‹_› hcount
    · exact (executeOpcode_append ctx op t { m with opCount := m.opCount + 1 }).limits

lemma except_map_eq_ok {ε α β : Type} {x : Except ε α} {f : α → β} {b : β}
    (h : x.map f = .ok b) : ∃ a, x = .ok a ∧ f a = b := by
  cases x with
  | error e => cases h
  | ok a => exact ⟨a, rfl, by simpa [Except.map] using h⟩

lemma enterBranch_rest_length_le (c : Bool) (m : Machine) :
    (enterBranch c m).rest.length ≤ m.rest.length := by
  cases c with
  | true => exact le_refl _
  | false => exact skipToEndif_length_le 1 m.rest

lemma popCondition_rest {ctx : Context} {op : Opcode} {m : Machine} {p : Bool × Machine}
    (h : popCondition ctx op m = .ok p) : p.2.rest = m.rest := by
  obtain ⟨⟨top, s⟩, -, h⟩ := except_bind_eq_ok h
  simp only at h
  split_ifs at h
  · cases h
  · rw [← Except.ok.inj h]

lemma executeOpcode_rest_length_le {ctx : Context} {op : Opcode} {m : Machine}
    {p : Bool × Machine} (h : executeOpcode ctx op m = .ok p) :
    p.2.rest.length ≤ m.rest.length := by
  unfold executeOpcode at h
  split at h
  · obtain ⟨q, hq, h⟩ := except_bind_eq_ok h
    cases h
    exact popCondition_rest hq ▸ enterBranch_rest_length_le q.1 q.2
  · obtain ⟨q, hq, h⟩ := except_bind_eq_ok h
    cases h
    exact popCondition_rest hq ▸ enterBranch_rest_length_le (!q.1) q.2
  · split at h
    · cases h
    · cases h
      exact enterBranch_rest_length_le _ { m with ifStack := _ }
  · split at h <;> cases h
    exact le_refl _
  · split at h <;> cases h
    exact le_refl _
  · split at h <;> cases h
    exact le_refl _
  · obtain ⟨q, -, h⟩ := except_bind_eq_ok h
    cases h
    exact le_refl _

lemma handlePush_rest_length_le {op : Opcode} {m n : Machine} (h : handlePush op m = .ok n) :
    n.rest.length ≤ m.rest.length := by
  have hdata (width : ℕ) (h : pushData op width m = .ok n) : n.rest.length ≤ m.rest.length := by
    obtain ⟨length, -, -, -, rfl⟩ := pushData_eq_ok h
    simp only [List.length_drop]
    omega
  unfold handlePush at h
  split at h
  · exact hdata 1 h
  · exact hdata 2 h
  · exact hdata 4 h
  · cases h
    exact le_refl _
  · cases h
    exact le_refl _

lemma thenLimits_eq_ok {p q : Bool × Machine} (h : thenLimits p = .ok q) :
    q = p ∧ (p.1 = true → enforceLimits p.2 = .ok ()) := by
  obtain ⟨c, m⟩ := p
  cases c with
  | false =>
    cases h
    exact ⟨rfl, fun h => nomatch h⟩
  | true =>
    obtain ⟨u, hu, rfl⟩ := except_map_eq_ok h
    exact ⟨rfl, fun _ => hu⟩

/-- What a step that succeeds has done. -/
lemma step_eq_ok {ctx : Context} {b : UInt8} {m n : Machine} {c : Bool}
    (h : step ctx b m = .ok (c, n)) :
    ∃ op, Opcode.ofByte b = some op ∧
      ((op.isPush = true ∧ c = true ∧ handlePush op m = .ok n) ∨
        (op.isPush = false ∧
          ¬ (op.isDisabled &&
            ctx.flags.isEnabled ScriptFlags.VERIFY_DISCOURAGE_UPGRADABLE_NOPS) = true ∧
          m.opCount + 1 ≤ MAX_OPS_PER_SCRIPT ∧
          executeOpcode ctx op { m with opCount := m.opCount + 1 } = .ok (c, n) ∧
          (c = true → enforceLimits n = .ok ()))) := by
  unfold step at h
  cases hb : Opcode.ofByte b with
  | none => simp [hb] at h
  | some op =>
    refine ⟨op, rfl, ?_⟩
    simp only [hb] at h
    split_ifs at h with hpush hdis hcount
    · obtain ⟨n', hn', h⟩ := except_bind_eq_ok h
      cases h
      exact Or.inl ⟨hpush, rfl, hn'⟩
    · obtain ⟨p, hp, h⟩ := except_bind_eq_ok h
      obtain ⟨rfl, hlim⟩ := thenLimits_eq_ok h
      exact Or.inr ⟨by simpa using hpush, hdis, by omega, hp, hlim⟩

lemma step_rest_length_le {ctx : Context} {b : UInt8} {m n : Machine} {c : Bool}
    (h : step ctx b m = .ok (c, n)) : n.rest.length ≤ m.rest.length := by
  obtain ⟨op, -, ⟨-, -, h⟩ | ⟨-, -, -, h, -⟩⟩ := step_eq_ok h
  · exact handlePush_rest_length_le h
  · exact executeOpcode_rest_length_le h

section loop
variable {ctx : Context}

lemma loop_nil {m : Machine} (h : m.rest = []) (k : ℕ) : loop ctx k m = .ok (some m) := by
  cases k with
  | zero => rfl
  | succ k => simp [loop, h]

lemma loop_cons {k : ℕ} {m n : Machine} {b : UInt8} {r : Bytes} (hr : m.rest = b :: r) :
    loop ctx (k + 1) m = .ok (some n) ↔
      ∃ m', step ctx b { m with rest := r } = .ok (true, m') ∧ loop ctx k m' = .ok (some n) := by
  simp only [loop, hr]
  cases hs : step ctx b { m with rest := r } with
  | error e => simp [bind, Except.bind]
  | ok p =>
    obtain ⟨c, m'⟩ := p
    cases c with
    | false => simp [bind, Except.bind, pure, Except.pure]
    | true => simp [bind, Except.bind]

lemma loop_add {j k : ℕ} {m n : Machine} :
    loop ctx (j + k) m = .ok (some n) ↔
      ∃ m', loop ctx j m = .ok (some m') ∧ loop ctx k m' = .ok (some n) := by
  induction j generalizing m with
  | zero => simp [loop]
  | succ j ih =>
    rw [Nat.succ_add]
    cases hr : m.rest with
    | nil => simp [loop_nil hr]
    | cons b r =>
      constructor
      · intro h
        obtain ⟨m1, hs, h⟩ := (loop_cons hr).1 h
        obtain ⟨m', h1, h2⟩ := ih.1 h
        exact ⟨m', (loop_cons hr).2 ⟨m1, hs, h1⟩, h2⟩
      · rintro ⟨m', h1, h2⟩
        obtain ⟨m1, hs, h1⟩ := (loop_cons hr).1 h1
        exact (loop_cons hr).2 ⟨m1, hs, ih.2 ⟨m', h1, h2⟩⟩

lemma loop_rest_length_le {k : ℕ} {m n : Machine} (h : loop ctx k m = .ok (some n)) :
    n.rest.length ≤ m.rest.length := by
  induction k generalizing m with
  | zero =>
    cases h
    exact le_refl _
  | succ k ih =>
    cases hr : m.rest with
    | nil =>
      rw [loop_nil hr] at h
      cases h
      simp [hr]
    | cons b r =>
      obtain ⟨m', hs, h⟩ := (loop_cons hr).1 h
      have hle : m'.rest.length ≤ r.length := step_rest_length_le hs
      exact (ih h).trans (hle.trans (Nat.le_succ _))

/-- The length of the script is enough fuel. -/
lemma loop_rest_nil {k : ℕ} {m n : Machine} (hk : m.rest.length ≤ k)
    (h : loop ctx k m = .ok (some n)) : n.rest = [] := by
  induction k generalizing m with
  | zero =>
    cases h
    exact List.eq_nil_of_length_eq_zero (Nat.le_zero.1 hk)
  | succ k ih =>
    cases hr : m.rest with
    | nil =>
      rw [loop_nil hr] at h
      cases h
      exact hr
    | cons b r =>
      obtain ⟨m', hs, h⟩ := (loop_cons hr).1 h
      have hle : m'.rest.length ≤ r.length := step_rest_length_le hs
      rw [hr, List.length_cons] at hk
      exact ih (by omega) h

lemma loop_start_rest_nil {script : Bytes} {stack : Items} {n : Machine}
    (h : loop ctx script.length (start script stack) = .ok (some n)) : n.rest = [] :=
  loop_rest_nil (m := start script stack) (le_refl _) h

/-- A loop that has read its whole script does not depend on the fuel. -/
lemma loop_enough {k k' : ℕ} {m n : Machine} (h : loop ctx k m = .ok (some n)) (hn : n.rest = [])
    (hk : m.rest.length ≤ k') : loop ctx k' m = .ok (some n) := by
  induction k generalizing m k' with
  | zero =>
    cases h
    exact loop_nil hn k'
  | succ k ih =>
    cases hr : m.rest with
    | nil =>
      rw [loop_nil hr] at h ⊢
      exact h
    | cons b r =>
      obtain ⟨m', hs, h⟩ := (loop_cons hr).1 h
      have hle : m'.rest.length ≤ r.length := step_rest_length_le hs
      rw [hr, List.length_cons] at hk
      obtain ⟨k'', rfl⟩ : ∃ k'', k' = k'' + 1 := ⟨k' - 1, by omega⟩
      exact (loop_cons hr).2 ⟨m', hs, ih h (by omega)⟩

/-- A run of the script alone that closes its conditionals is a run with bytes behind it. -/
lemma loop_append {k : ℕ} {m n : Machine} (t : Bytes) (h : loop ctx k m = .ok (some n))
    (hif : n.ifStack = []) :
    ∃ j, loop ctx j (m.append t) = .ok (some (n.append t)) := by
  induction k generalizing m with
  | zero =>
    cases h
    exact ⟨0, rfl⟩
  | succ k ih =>
    cases hr : m.rest with
    | nil =>
      rw [loop_nil hr] at h
      cases h
      exact ⟨0, rfl⟩
    | cons b r =>
      obtain ⟨m', hs, h⟩ := (loop_cons hr).1 h
      have happ : (m.append t).rest = b :: (r ++ t) := by simp [hr]
      rcases step_append ctx b t { m with rest := r } with
        ⟨c, m1, h1, h2⟩ | ⟨e, e', h1, -⟩ | ⟨c, n', -, -, hshort⟩
      · rw [hs] at h1
        cases h1
        obtain ⟨j, hj⟩ := ih h
        exact ⟨j + 1, (loop_cons happ).2 ⟨_, h2, hj⟩⟩
      · rw [hs] at h1
        cases h1
      · -- a skip that ran off the end leaves its conditional open
        obtain ⟨hnil, hopen, -, -⟩ := hshort true m' hs
        rw [loop_nil hnil] at h
        cases h
        exact absurd hif hopen

/-- A run that stops exactly at the bytes behind the script never read them. -/
lemma loop_of_append {k : ℕ} {m n : Machine} {t : Bytes}
    (h : loop ctx k (m.append t) = .ok (some n)) (hrest : n.rest = t) :
    ∃ m', loop ctx k m = .ok (some m') ∧ m'.rest = [] ∧ n = m'.append t := by
  induction k generalizing m with
  | zero =>
    cases h
    exact ⟨m, rfl, by simpa using hrest, rfl⟩
  | succ k ih =>
    cases hr : m.rest with
    | nil =>
      refine ⟨m, loop_nil hr _, hr, ?_⟩
      cases ht : t with
      | nil =>
        rw [loop_nil (by simp [hr, ht])] at h
        cases h
        rw [ht]
      | cons b t' =>
        obtain ⟨m', hs, h⟩ := (loop_cons (by simpa [hr] using ht)).1 h
        have hle : m'.rest.length ≤ t'.length := step_rest_length_le hs
        have hlen := loop_rest_length_le h
        rw [hrest, ht, List.length_cons] at hlen
        omega
    | cons b r =>
      have happ : (m.append t).rest = b :: (r ++ t) := by simp [hr]
      obtain ⟨m', hs, h⟩ := (loop_cons happ).1 h
      rcases step_append ctx b t { m with rest := r } with
        ⟨c, m1, h1, h2⟩ | ⟨e, e', -, h2⟩ | ⟨c, n', h2, hlt, -⟩
      · obtain ⟨rfl, rfl⟩ : true = c ∧ m' = m1.append t := by
          have := hs.symm.trans h2
          simpa using this
        obtain ⟨m2, hm2, hnil, rfl⟩ := ih h
        exact ⟨m2, (loop_cons hr).2 ⟨m1, h1, hm2⟩, hnil, rfl⟩
      · exact nomatch hs.symm.trans h2
      · have hm : m' = n' := by
          have := hs.symm.trans h2
          simp only [Except.ok.injEq, Prod.mk.injEq] at this
          exact this.2
        have hlen := loop_rest_length_le h
        rw [hrest, hm] at hlen
        omega

end loop

/-! The second half: the machine runs with more items below its alternative stack. -/

/-- A step above a frame is the step without it, unless it takes an item from the frame. -/
def StepLifts (alt : Items) (count : ℕ) (short long : Except ScriptError (Bool × Machine)) : Prop :=
  ∀ c n, long = .ok (c, n) →
    (∃ m, short = .ok (c, m) ∧ n = m.lift alt count) ∨
      (n.altstack.length < alt.length ∧ ∃ e, short = .error e)

lemma StepLifts.same {alt : Items} {count : ℕ} {c : Bool} {m : Machine} :
    StepLifts alt count (.ok (c, m)) (.ok (c, m.lift alt count)) := by
  rintro c' n h
  cases h
  exact Or.inl ⟨m, rfl, rfl⟩

lemma StepLifts.fails {alt : Items} {count : ℕ} {short : Except ScriptError (Bool × Machine)}
    {e : ScriptError} : StepLifts alt count short (.error e) := by
  rintro c n h
  cases h

lemma popCondition_lift (ctx : Context) (op : Opcode) (alt : Items) (count : ℕ) (m : Machine) :
    popCondition ctx op (m.lift alt count) =
      (popCondition ctx op m).map fun p => (p.1, p.2.lift alt count) := by
  unfold popCondition
  cases hm : m.items with
  | nil => simp [hm, popOr, Except.map, bind, Except.bind]
  | cons a s =>
    simp only [Machine.lift_items, hm, popOr, bind, Except.bind]
    split_ifs <;> rfl

lemma executeOpcode_lift (ctx : Context) (op : Opcode) (alt : Items) (count : ℕ) (m : Machine) :
    StepLifts alt count (executeOpcode ctx op m) (executeOpcode ctx op (m.lift alt count)) := by
  unfold executeOpcode
  split
  · rw [popCondition_lift]
    cases popCondition ctx .OP_IF m with
    | error e => exact StepLifts.fails
    | ok p => exact StepLifts.same
  · rw [popCondition_lift]
    cases popCondition ctx .OP_NOTIF m with
    | error e => exact StepLifts.fails
    | ok p => exact StepLifts.same
  · simp only [Machine.lift_ifStack]
    cases m.ifStack with
    | nil => exact StepLifts.fails
    | cons c cs => exact StepLifts.same
  · simp only [Machine.lift_ifStack]
    cases m.ifStack with
    | nil => exact StepLifts.fails
    | cons c cs => exact StepLifts.same
  · simp only [Machine.lift_items]
    cases m.items with
    | nil => exact StepLifts.fails
    | cons a s => exact StepLifts.same
  · simp only [Machine.lift_altstack]
    cases m.altstack with
    | nil =>
      cases alt with
      | nil => exact StepLifts.fails
      | cons a alt =>
        rintro c n h
        cases h
        exact Or.inr ⟨by simp, _, rfl⟩
    | cons a alt' => exact StepLifts.same
  · simp only [Machine.lift_items]
    cases executeStackOpcode ctx op m.items with
    | error e => exact StepLifts.fails
    | ok p => exact StepLifts.same

lemma handlePush_lift (op : Opcode) (alt : Items) (count : ℕ) (m : Machine) :
    handlePush op (m.lift alt count) = (handlePush op m).map (·.lift alt count) := by
  have hdata (width : ℕ) : pushData op width (m.lift alt count) =
      (pushData op width m).map (·.lift alt count) := by
    by_cases hw : m.rest.length < width
    · simp [pushData, hw, Except.map]
    · by_cases hl : (m.rest.drop width).length < leNat (m.rest.take width)
      · simp only [pushData, Machine.lift_rest, hw, hl, if_true, if_false]
        rfl
      · by_cases hs : MAX_SCRIPT_ELEMENT_SIZE < leNat (m.rest.take width)
        · simp only [pushData, Machine.lift_rest, hw, hl, hs, if_true, if_false]
          rfl
        · simp only [pushData, Machine.lift_rest, hw, hl, hs, if_false]
          rfl
  unfold handlePush
  split
  · exact hdata 1
  · exact hdata 2
  · exact hdata 4
  · rfl
  · rfl

lemma enforceLimits_eq_ok {m : Machine} (h : enforceLimits m = .ok ()) :
    m.items.length + m.altstack.length ≤ MAX_STACK_ITEMS ∧
      ∀ item ∈ m.items, item.length ≤ MAX_SCRIPT_ELEMENT_SIZE := by
  unfold enforceLimits at h
  split_ifs at h with hcount hsize
  refine ⟨by omega, ?_⟩
  intro item hitem
  by_contra hlt
  exact hsize (List.any_eq_true.2 ⟨item, hitem, by simpa using hlt⟩)

lemma enforceLimits_of_lift {alt : Items} {count : ℕ} {m : Machine}
    (h : enforceLimits (m.lift alt count) = .ok ()) : enforceLimits m = .ok () := by
  obtain ⟨hcount, hsize⟩ := enforceLimits_eq_ok h
  simp only [Machine.lift_items, Machine.lift_altstack, List.length_append] at hcount hsize
  have hany : ¬ (m.items.any fun item => MAX_SCRIPT_ELEMENT_SIZE < item.length) = true := by
    rw [List.any_eq_true]
    rintro ⟨item, hitem, hlt⟩
    exact absurd (hsize item hitem) (by simpa using hlt)
  have hle : ¬ MAX_STACK_ITEMS < m.items.length + m.altstack.length := by omega
  simp only [enforceLimits, hle, hany, if_false]
  rfl

lemma step_lift (ctx : Context) (b : UInt8) (alt : Items) (count : ℕ) (m : Machine) :
    StepLifts alt count (step ctx b m) (step ctx b (m.lift alt count)) := by
  intro c n h
  obtain ⟨op, hop, ⟨hpush, rfl, hn⟩ | ⟨hpush, hdis, hcount, hn, hlim⟩⟩ := step_eq_ok h
  · left
    rw [handlePush_lift] at hn
    obtain ⟨m', hm', rfl⟩ := except_map_eq_ok hn
    refine ⟨m', ?_, rfl⟩
    simp [step, hop, hpush, hm', bind, Except.bind, pure, Except.pure]
  · have hcount' : ¬ MAX_OPS_PER_SCRIPT < m.opCount + 1 := by
      simp only [Machine.lift_opCount] at hcount
      omega
    have hstep : step ctx b m =
        (executeOpcode ctx op { m with opCount := m.opCount + 1 } >>= thenLimits) := by
      simp only [step, hop, hpush, hdis, hcount', if_false, Bool.false_eq_true]
    have hframe : { m.lift alt count with opCount := (m.lift alt count).opCount + 1 } =
        Machine.lift { m with opCount := m.opCount + 1 } alt count := by
      simp only [Machine.lift, Machine.mk.injEq, true_and]
      omega
    rw [hframe] at hn
    rw [hstep]
    rcases executeOpcode_lift ctx op alt count _ c n hn with ⟨m', hm', rfl⟩ | ⟨hlt, e, he⟩
    · left
      refine ⟨m', ?_, rfl⟩
      rw [hm']
      cases c with
      | false => rfl
      | true => simp [bind, Except.bind, thenLimits, enforceLimits_of_lift (hlim rfl), Except.map]
    · right
      exact ⟨hlt, e, by rw [he]; rfl⟩

/-- The run never takes an item from below the alternative stack it starts with. -/
def KeepsAltstack (ctx : Context) (m : Machine) : Prop :=
  ∀ j n, loop ctx j m = .ok (some n) → m.altstack.length ≤ n.altstack.length

lemma loop_of_lift {ctx : Context} {k : ℕ} {alt : Items} {count : ℕ} {m n : Machine}
    (hkeep : ∀ j n, loop ctx j (m.lift alt count) = .ok (some n) → alt.length ≤ n.altstack.length)
    (h : loop ctx k (m.lift alt count) = .ok (some n)) :
    ∃ m', loop ctx k m = .ok (some m') ∧ n = m'.lift alt count := by
  induction k generalizing m with
  | zero =>
    cases h
    exact ⟨m, rfl, rfl⟩
  | succ k ih =>
    cases hr : m.rest with
    | nil =>
      rw [loop_nil (by simpa using hr)] at h
      cases h
      exact ⟨m, loop_nil hr _, rfl⟩
    | cons b r =>
      have hlr : (m.lift alt count).rest = b :: r := hr
      obtain ⟨n1, hs, h⟩ := (loop_cons hlr).1 h
      have hkeep1 (j : ℕ) (n : Machine) (hj : loop ctx j n1 = .ok (some n)) :
          alt.length ≤ n.altstack.length :=
        hkeep (j + 1) n ((loop_cons hlr).2 ⟨n1, hs, hj⟩)
      rcases step_lift ctx b alt count { m with rest := r } true n1 hs with
        ⟨m1, hm1, rfl⟩ | ⟨hlt, -⟩
      · obtain ⟨m', hm', rfl⟩ := ih hkeep1 h
        exact ⟨m', (loop_cons hr).2 ⟨m1, hm1, hm'⟩, rfl⟩
      · exact absurd (hkeep1 0 n1 rfl) (by omega)

lemma keepsAltstack_of_loop {ctx : Context} {k : ℕ} {alt : Items} {count : ℕ} {m : Machine}
    (h : ∀ k, ∃ m', loop ctx k m = .ok (some m')) {n : Machine}
    (hn : loop ctx k (m.lift alt count) = .ok (some n)) : alt.length ≤ n.altstack.length := by
  induction k generalizing m with
  | zero =>
    cases hn
    simp
  | succ k ih =>
    cases hr : m.rest with
    | nil =>
      rw [loop_nil (by simpa using hr)] at hn
      cases hn
      simp
    | cons b r =>
      have hlr : (m.lift alt count).rest = b :: r := hr
      obtain ⟨n1, hs, hn⟩ := (loop_cons hlr).1 hn
      have hnext (j : ℕ) : ∃ m1 m', step ctx b { m with rest := r } = .ok (true, m1) ∧
          loop ctx j m1 = .ok (some m') := by
        obtain ⟨m', hm'⟩ := h (j + 1)
        obtain ⟨m1, hm1, hm'⟩ := (loop_cons hr).1 hm'
        exact ⟨m1, m', hm1, hm'⟩
      obtain ⟨m1, -, hm1, -⟩ := hnext 0
      rcases step_lift ctx b alt count { m with rest := r } true n1 hs with
        ⟨m2, hm2, rfl⟩ | ⟨-, e, he⟩
      · refine ih ?_ hn
        intro j
        obtain ⟨m3, m', hm3, hm'⟩ := hnext j
        have : m2 = m3 := by
          have := hm2.symm.trans hm3
          simpa using this
        exact ⟨m', this ▸ hm'⟩
      · exact nomatch he.symm.trans hm1

/-! Both halves together. -/

def ItemsSmall (m : Machine) : Prop := ∀ item ∈ m.items, item.length ≤ MAX_SCRIPT_ELEMENT_SIZE

lemma handlePush_itemsSmall {op : Opcode} {m n : Machine} (hm : ItemsSmall m)
    (h : handlePush op m = .ok n) : ItemsSmall n := by
  have hdata (width : ℕ) (h : pushData op width m = .ok n) : ItemsSmall n := by
    obtain ⟨length, -, hle, -, rfl⟩ := pushData_eq_ok h
    intro item hitem
    rcases List.mem_cons.1 hitem with rfl | hitem
    · exact (List.length_take_le _ _).trans hle
    · exact hm item hitem
  have hcons (data : Bytes) (hdata : data.length ≤ 1) :
      ItemsSmall { m with items := data :: m.items } := by
    intro item hitem
    rcases List.mem_cons.1 hitem with rfl | hitem
    · exact hdata.trans (by decide)
    · exact hm item hitem
  unfold handlePush at h
  split at h
  · exact hdata 1 h
  · exact hdata 2 h
  · exact hdata 4 h
  · cases h
    exact hcons _ (le_refl _)
  · cases h
    refine hcons _ ?_
    split_ifs <;> simp

lemma step_itemsSmall {ctx : Context} {b : UInt8} {m n : Machine} (hm : ItemsSmall m)
    (h : step ctx b m = .ok (true, n)) : ItemsSmall n := by
  obtain ⟨op, -, ⟨-, -, h⟩ | ⟨-, -, -, -, h⟩⟩ := step_eq_ok h
  · exact handlePush_itemsSmall hm h
  · exact (enforceLimits_eq_ok (h rfl)).2

lemma loop_itemsSmall {ctx : Context} {k : ℕ} {m n : Machine} (hm : ItemsSmall m)
    (h : loop ctx k m = .ok (some n)) : ItemsSmall n := by
  induction k generalizing m with
  | zero =>
    cases h
    exact hm
  | succ k ih =>
    cases hr : m.rest with
    | nil =>
      rw [loop_nil hr] at h
      cases h
      exact hm
    | cons b r =>
      obtain ⟨m', hs, h⟩ := (loop_cons hr).1 h
      have hm' : ItemsSmall { m with rest := r } := hm
      exact ih (step_itemsSmall hm' hs) h

lemma execute_eq_ok_true {ctx : Context} {script : Bytes} {stack : Items} :
    execute ctx script stack = .ok true ↔
      script.length ≤ MAX_SCRIPT_SIZE ∧ (∀ item ∈ stack, item.length ≤ MAX_SCRIPT_ELEMENT_SIZE) ∧
        ∃ m, loop ctx script.length (start script stack) = .ok (some m) ∧
          finish ctx m = .ok true := by
  have hany : (stack.any fun item => MAX_SCRIPT_ELEMENT_SIZE < item.length) = true ↔
      ¬ ∀ item ∈ stack, item.length ≤ MAX_SCRIPT_ELEMENT_SIZE := by
    simp [List.any_eq_true]
  unfold execute
  by_cases hsize : MAX_SCRIPT_SIZE < script.length
  · simp [hsize]
  · by_cases hstack : ∀ item ∈ stack, item.length ≤ MAX_SCRIPT_ELEMENT_SIZE
    · rw [if_neg hsize, if_neg (by rw [hany]; exact not_not_intro hstack)]
      have hsize' : script.length ≤ MAX_SCRIPT_SIZE := by omega
      simp only [hsize', true_and]
      cases loop ctx script.length (start script stack) with
      | error e => simp [bind, Except.bind]
      | ok r =>
        cases r with
        | none => simp [bind, Except.bind, pure, Except.pure]
        | some m =>
          simp only [bind, Except.bind, Except.ok.injEq, Option.some.injEq, exists_eq_left']
          exact ⟨fun h => ⟨hstack, h⟩, fun h => h.2⟩
    · rw [if_neg hsize, if_pos (hany.2 hstack)]
      simp [hstack]

/-- What `execute` does with a script short of its tests of the final stack: the items left
by a run that reads the whole script and closes its conditionals. -/
def runToEnd (ctx : Context) (script : Bytes) : Except ScriptError (Option Items) :=
  if MAX_SCRIPT_SIZE < script.length then .error .scriptSizeLimitExceeded
  else do
    match ← loop ctx script.length (start script []) with
    | none => return none
    | some m => if m.ifStack ≠ [] then .error .unbalancedConditional else return some m.items

/-- The two scripts are run in turn, the second on the stack of the first. -/
def AcceptsInTurn (ctx : Context) (scriptSig scriptPubkey : Bytes) : Prop :=
  ∃ items, runToEnd ctx scriptSig = .ok (some items) ∧ execute ctx scriptPubkey items = .ok true

/-- The run of the concatenation comes to the first byte of `scriptPubkey` between two
instructions, outside of any conditional, and from there on leaves alone what the
alternative stack holds. -/
def Separated (ctx : Context) (scriptSig scriptPubkey : Bytes) : Prop :=
  ∃ k m, loop ctx k (start (scriptSig ++ scriptPubkey) []) = .ok (some m) ∧
    m.rest = scriptPubkey ∧ m.ifStack = [] ∧ KeepsAltstack ctx m

lemma runToEnd_eq_ok {ctx : Context} {script : Bytes} {items : Items} :
    runToEnd ctx script = .ok (some items) ↔
      script.length ≤ MAX_SCRIPT_SIZE ∧ ∃ m, loop ctx script.length (start script []) = .ok (some m) ∧
        m.ifStack = [] ∧ m.items = items := by
  unfold runToEnd
  by_cases hsize : MAX_SCRIPT_SIZE < script.length
  · simp [hsize]
  · have hsize' : script.length ≤ MAX_SCRIPT_SIZE := by omega
    rw [if_neg hsize]
    simp only [hsize', true_and]
    cases loop ctx script.length (start script []) with
    | error e => simp [bind, Except.bind]
    | ok r =>
      cases r with
      | none => simp [bind, Except.bind, pure, Except.pure]
      | some m =>
        by_cases hif : m.ifStack = [] <;> simp [bind, Except.bind, pure, Except.pure, hif]

/-- At the cut the machine is the one that starts on `scriptPubkey`, above the frame. -/
lemma eq_start_lift {m : Machine} (hif : m.ifStack = []) :
    m = (start m.rest m.items).lift m.altstack m.opCount := by
  obtain ⟨rest, items, altstack, ifStack, opCount⟩ := m
  cases hif
  simp [start, Machine.lift]

lemma acceptsInTurn_of_separated {ctx : Context} {scriptSig scriptPubkey : Bytes}
    (h : execute ctx (scriptSig ++ scriptPubkey) [] = .ok true)
    (hsep : Separated ctx scriptSig scriptPubkey) : AcceptsInTurn ctx scriptSig scriptPubkey := by
  obtain ⟨hsize, -, mf, hloop, hfin⟩ := execute_eq_ok_true.1 h
  obtain ⟨k, m, hk, hrest, hif, hkeep⟩ := hsep
  rw [List.length_append] at hsize
  -- the first half, without the bytes of `scriptPubkey`
  have happ : start (scriptSig ++ scriptPubkey) [] = (start scriptSig []).append scriptPubkey := rfl
  obtain ⟨m1, hm1, hnil, hm⟩ := loop_of_append (happ ▸ hk) hrest
  have hfirst : loop ctx scriptSig.length (start scriptSig []) = .ok (some m1) :=
    loop_enough hm1 hnil (le_refl _)
  have hitems : m.items = m1.items := by rw [hm]; rfl
  -- the second half, without the frame that the first half left
  have hnilf : mf.rest = [] := loop_start_rest_nil hloop
  have hsecond : loop ctx (scriptSig ++ scriptPubkey).length m = .ok (some mf) := by
    have hlong := @loop_enough _ _ (k + (scriptSig ++ scriptPubkey).length) _ _ hloop hnilf
        (Nat.le_add_left _ _)
    obtain ⟨m', hm', hmf⟩ := loop_add.1 hlong
    have : m = m' := by simpa using hk.symm.trans hm'
    exact this ▸ hmf
  have hstart := eq_start_lift hif
  rw [hrest] at hstart
  rw [hstart] at hsecond
  obtain ⟨n, hn, rfl⟩ := loop_of_lift (fun j n hj => hkeep j n (hstart ▸ hj)) hsecond
  have hsmall : ItemsSmall m := loop_itemsSmall (by simp [ItemsSmall, start]) hk
  refine ⟨m.items, runToEnd_eq_ok.2 ⟨by omega, m1, hfirst, ?_, hitems.symm⟩, ?_⟩
  · rw [hm] at hif
    exact hif
  · refine execute_eq_ok_true.2 ⟨by omega, hsmall, n, loop_enough hn hnilf (le_refl _), ?_⟩
    exact hfin

lemma separated_of_acceptsInTurn {ctx : Context} {scriptSig scriptPubkey : Bytes}
    (h : AcceptsInTurn ctx scriptSig scriptPubkey) : Separated ctx scriptSig scriptPubkey := by
  obtain ⟨items, hsig, hpub⟩ := h
  obtain ⟨-, m, hm, hif, rfl⟩ := runToEnd_eq_ok.1 hsig
  obtain ⟨-, -, n, hn, -⟩ := execute_eq_ok_true.1 hpub
  have hnil : m.rest = [] := loop_start_rest_nil hm
  have hnilf : n.rest = [] := loop_start_rest_nil hn
  obtain ⟨j, hj⟩ := loop_append scriptPubkey hm hif
  refine ⟨j, m.append scriptPubkey, hj, by simp [hnil], hif, ?_⟩
  have hstart := eq_start_lift (m := m.append scriptPubkey) hif
  simp only [Machine.append_rest, hnil, List.nil_append] at hstart
  -- with any fuel the run of `scriptPubkey` alone is a prefix of the one that succeeds
  have hall (k : ℕ) : ∃ m', loop ctx k (start scriptPubkey m.items) = .ok (some m') := by
    have hlong := @loop_enough _ _ (k + scriptPubkey.length) _ _ hn hnilf (Nat.le_add_left _ _)
    obtain ⟨m', hm', -⟩ := loop_add.1 hlong
    exact ⟨m', hm'⟩
  intro k n' hk
  rw [hstart] at hk
  exact keepsAltstack_of_loop hall hk

/-- An input that the generic fallback accepts is also accepted by running the two scripts
in turn exactly when `scriptSig` ends where `scriptPubkey` begins. -/
theorem acceptsInTurn_iff_separated (C : Crypto) (tx : Transaction) (inputIndex : ℕ)
    (scriptSig scriptPubkey : Bytes) (amount flags : ℕ) (hgeneric : isGeneric scriptPubkey = true)
    (h : verifyInputScript C tx inputIndex scriptSig scriptPubkey amount flags = true) :
    AcceptsInTurn (engineContext C tx inputIndex amount flags) scriptSig scriptPubkey ↔
      Separated (engineContext C tx inputIndex amount flags) scriptSig scriptPubkey := by
  rw [verifyInputScript_generic C tx inputIndex amount flags hgeneric] at h
  exact ⟨separated_of_acceptsInTurn, acceptsInTurn_of_separated h⟩

section examples

/-- None of the scripts below reaches a cryptographic operation. -/
def unusedCrypto : Crypto := .ofHashlib ⟨id, id, id⟩

def spendingTx : Transaction :=
  { version := 1
    vin := [{ prevTxHash := List.replicate 32 0x11, prevTxIndex := 0, scriptSig := [],
              sequence := 0xffffffff, witness := [] }]
    vout := [{ value := 1, scriptPubkey := [0x51] }]
    locktime := 0 }

def standardContext : Context :=
  engineContext unusedCrypto spendingTx 0 0 ScriptFlags.STANDARD_VERIFY_FLAGS

/-- `OP_1` against `OP_1 OP_EQUAL`. -/
theorem acceptsInTurn_iff_separated_one_equal :
    isGeneric [0x51, 0x87] = true ∧
      verifyInputScript unusedCrypto spendingTx 0 [0x51] [0x51, 0x87] 0
        ScriptFlags.STANDARD_VERIFY_FLAGS = true ∧
      (AcceptsInTurn standardContext [0x51] [0x51, 0x87] ↔
        Separated standardContext [0x51] [0x51, 0x87]) :=
  ⟨by decide, by decide +kernel,
    acceptsInTurn_iff_separated unusedCrypto spendingTx 0 [0x51] [0x51, 0x87] 0
      ScriptFlags.STANDARD_VERIFY_FLAGS (by decide) (by decide +kernel)⟩

/-- A pay-to-pubkey output: `OP_PUSHDATA1` of 33 bytes and `OP_CHECKSIG`. -/
def payToPubkey : Bytes := [0x4c, 0x21, 0x02] ++ List.replicate 32 0x22 ++ [0xac]

/-- `OP_PUSHDATA1` with the length of the whole output script and no data of its own. -/
def swallowingSig : Bytes := [0x4c, 0x24]

/-- The output is spent with no signature: its script becomes the data of a push. -/
theorem payToPubkey_swallowed :
    isGeneric payToPubkey = true ∧
      verifyInputScript unusedCrypto spendingTx 0 swallowingSig payToPubkey 0
        ScriptFlags.STANDARD_VERIFY_FLAGS = true ∧
      ¬ AcceptsInTurn standardContext swallowingSig payToPubkey := by
  refine ⟨by decide +kernel, by decide +kernel, ?_⟩
  rintro ⟨items, hsig, -⟩
  have herr : runToEnd standardContext swallowingSig = .error (.truncated .OP_PUSHDATA1) := by rfl
  exact nomatch herr.symm.trans hsig

end examples

end BerzCoin.Script
