import BerzCoin.ScriptBoundary

/-! The two readers of push-only scripts: `_parse_push_only_items` and the engine's loop. -/
namespace BerzCoin.Script
open Stack (Items)

/-- The opcodes of a push-only script, without the bytes of the pushed items. -/
def pushOpcodesLoop : ℕ → Bytes → List UInt8
  | 0, _ => []
  | _ + 1, [] => []
  | fuel + 1, opcode :: rest =>
    match parsePushOnlyItem opcode rest with
    | .ok (_, rest) => opcode :: pushOpcodesLoop fuel rest
    | .error _ => [opcode]

def pushOpcodes (script : Bytes) : List UInt8 := pushOpcodesLoop script.length script

/-- The byte is the length of the item that follows it. -/
def IsDirectPush (opcode : UInt8) : Prop := 1 ≤ opcode.toNat ∧ opcode.toNat ≤ 75

instance : DecidablePred IsDirectPush := fun _ => inferInstanceAs (Decidable (_ ∧ _))

lemma ofByte_directPush {b : UInt8} (h : IsDirectPush b) : Opcode.ofByte b = none := by
  refine List.find?_eq_none.2 fun op _ => ?_
  have hop : op.toByte.toNat = 0 ∨ 75 < op.toByte.toNat := by cases op <;> decide
  simp only [decide_eq_true_eq, ← UInt8.toNat_inj]
  obtain ⟨hlow, hhigh⟩ := h
  omega

lemma step_directPush (ctx : Context) {b : UInt8} (h : IsDirectPush b) (m : Machine) :
    step ctx b m = .error (.notAnOpcode b) := by
  simp [step, ofByte_directPush h]

/-- What reading an item does to a machine. -/
def pushItem (item rest : Bytes) (m : Machine) : Except ScriptError Machine :=
  if item.length ≤ MAX_SCRIPT_ELEMENT_SIZE then
    .ok { m with rest := rest, items := item :: m.items }
  else .error .pushElementTooLarge

lemma step_of_handlePush (ctx : Context) {b : UInt8} (op : Opcode) {m : Machine}
    {r : Except ScriptError Machine} (hop : Opcode.ofByte b = some op) (hpush : op.isPush = true)
    (h : handlePush op m = r) : step ctx b m = r.map fun n => (true, n) := by
  simp only [step, hop, hpush, if_true, h]
  cases r <;> rfl

/-- The three forms with a length field take the same bytes in both readers. -/
lemma pushData_of_takePush {op : Opcode} {width : ℕ} {m : Machine} {item rest : Bytes}
    {missing truncated : String}
    (h : (do if m.rest.length < width then throw (.valueError missing)
             takePush (leNat (m.rest.take width)) (m.rest.drop width) truncated) =
      Except.ok (ε := PyError) (item, rest)) :
    pushData op width m = pushItem item rest m := by
  by_cases hw : m.rest.length < width
  · simp [hw, throw, throwThe, MonadExceptOf.throw, bind, Except.bind] at h
  · simp only [hw, if_false, takePush, bind, Except.bind] at h
    split at h
    · cases h
    · rename_i hlen
      simp only [Except.ok.injEq, Prod.mk.injEq] at h
      obtain ⟨rfl, rfl⟩ := h
      have hitem : ((m.rest.drop width).take (leNat (m.rest.take width))).length =
          leNat (m.rest.take width) := by
        rw [List.length_take]
        omega
      simp only [pushData, hw, hlen, if_false, pushItem, hitem]
      split_ifs
      · omega
      · rfl
      · rfl
      · omega

lemma ofByte_small {b : UInt8} (hlow : 0x51 ≤ b) (hhigh : b ≤ 0x60) :
    ∃ op, Opcode.ofByte b = some op ∧ op.isPush = true ∧
      ∀ m, handlePush op m = .ok { m with items := [b - 0x50] :: m.items } := by
  have hall : ∀ n : Fin 256, 0x51 ≤ n.val → n.val ≤ 0x60 →
      ∃ op ∈ Opcode.ofByte (UInt8.ofNat n), op.isPush = true ∧
        op.toByte - Opcode.toByte .OP_1 + 1 = UInt8.ofNat n - 0x50 ∧
        Opcode.toByte .OP_1 ≤ op.toByte := by
    decide +kernel
  obtain ⟨op, hop, hpush, hdata, hle⟩ := hall ⟨b.toNat, b.toNat_lt⟩ hlow hhigh
  simp only [UInt8.ofNat_toNat] at hop hdata
  refine ⟨op, hop, hpush, fun m => ?_⟩
  rw [← hdata]
  cases op <;> first | rfl | exact absurd hle (by decide)

/-- The engine reads every item that the parser reads, except after a direct push. -/
lemma step_of_parsePushOnlyItem (ctx : Context) {b : UInt8} {item rest : Bytes} {m : Machine}
    (h : parsePushOnlyItem b m.rest = .ok (item, rest)) (hdirect : ¬ IsDirectPush b) :
    step ctx b m = (pushItem item rest m).map fun n => (true, n) := by
  unfold parsePushOnlyItem at h
  simp only at h
  split at h
  · rename_i hb
    subst hb
    simp only [Except.ok.injEq, Prod.mk.injEq] at h
    obtain ⟨rfl, rfl⟩ := h
    exact step_of_handlePush ctx .OP_0 (by decide) (by decide) rfl
  split at h
  · rename_i hb hle
    have hpos : b.toNat ≠ 0 := fun h0 => hb (UInt8.toNat_inj.1 h0)
    exact absurd ⟨by omega, hle⟩ hdirect
  split at h
  · rename_i hb
    subst hb
    exact step_of_handlePush ctx .OP_PUSHDATA1 (by decide) (by decide)
      (pushData_of_takePush h)
  split at h
  · rename_i hb
    subst hb
    exact step_of_handlePush ctx .OP_PUSHDATA2 (by decide) (by decide)
      (pushData_of_takePush h)
  split at h
  · rename_i hb
    subst hb
    exact step_of_handlePush ctx .OP_PUSHDATA4 (by decide) (by decide)
      (pushData_of_takePush h)
  split at h
  · rename_i hb
    subst hb
    simp only [Except.ok.injEq, Prod.mk.injEq] at h
    obtain ⟨rfl, rfl⟩ := h
    exact step_of_handlePush ctx .OP_1NEGATE (by decide) (by decide) rfl
  split at h
  · rename_i hb
    simp only [Except.ok.injEq, Prod.mk.injEq] at h
    obtain ⟨rfl, rfl⟩ := h
    obtain ⟨op, hop, hpush, hdata⟩ := ofByte_small hb.1 hb.2
    exact step_of_handlePush ctx op hop hpush (hdata m)
  · cases h

/-- A run of the engine beside a run of the parser: it reads the same items up to the first
direct push and raises there. -/
lemma loop_of_parsePushOnlyLoop (ctx : Context) {fuel : ℕ} {script : Bytes} {items : List Bytes}
    (h : parsePushOnlyLoop fuel script = .ok items)
    (hitems : ∀ item ∈ items, item.length ≤ MAX_SCRIPT_ELEMENT_SIZE) (m : Machine)
    (hrest : m.rest = script) (hfuel : script.length ≤ fuel) :
    ((∀ b ∈ pushOpcodesLoop fuel script, ¬ IsDirectPush b) ∧
      loop ctx fuel m = .ok (some { m with rest := [], items := items.reverse ++ m.items })) ∨
    (∃ b ∈ pushOpcodesLoop fuel script, IsDirectPush b ∧
      loop ctx fuel m = .error (.notAnOpcode b)) := by
  induction fuel generalizing script items m with
  | zero =>
    obtain rfl : script = [] := by simpa using hfuel
    cases h
    exact Or.inl ⟨by simp [pushOpcodesLoop], by simp [loop, ← hrest]⟩
  | succ fuel ih =>
    cases script with
    | nil =>
      cases h
      refine Or.inl ⟨by simp [pushOpcodesLoop], ?_⟩
      rw [loop_nil hrest, ← hrest]
      simp
    | cons b rest =>
      simp only [parsePushOnlyLoop, bind, Except.bind] at h
      cases hitem : parsePushOnlyItem b rest with
      | error e => simp [hitem] at h
      | ok p =>
        obtain ⟨item, rest'⟩ := p
        simp only [hitem] at h
        cases hloop : parsePushOnlyLoop fuel rest' with
        | error e => simp [hloop] at h
        | ok items' =>
          simp only [hloop, pure, Except.pure, Except.ok.injEq] at h
          subst h
          simp only [pushOpcodesLoop, hitem, loop, hrest]
          by_cases hdirect : IsDirectPush b
          · refine Or.inr ⟨b, by simp, hdirect, ?_⟩
            rw [step_directPush ctx hdirect]
            rfl
          · have hstep := step_of_parsePushOnlyItem ctx (m := { m with rest := rest }) hitem hdirect
            rw [pushItem, if_pos (hitems item (by simp))] at hstep
            have hlength := step_rest_length_le hstep
            simp only [List.length_cons] at hfuel hlength
            simp only [Except.map] at hstep
            simp only [hstep, bind, Except.bind, if_true]
            rcases ih hloop (fun item' h' => hitems item' (List.mem_cons_of_mem _ h'))
              { m with rest := rest', items := item :: m.items } rfl (by omega) with
              ⟨hnone, hrun⟩ | ⟨b', hmem, hdirect', hrun⟩
            · refine Or.inl ⟨?_, ?_⟩
              · intro b' hb'
                rcases List.mem_cons.1 hb' with rfl | hb'
                · exact hdirect
                · exact hnone b' hb'
              · rw [hrun]
                simp
            · exact Or.inr ⟨b', List.mem_cons_of_mem _ hmem, hdirect', hrun⟩

lemma takePush_append {size : ℕ} {script item rest : Bytes} {message : String} (t : Bytes)
    (h : takePush size script message = .ok (item, rest)) :
    takePush size (script ++ t) message = .ok (item, rest ++ t) := by
  unfold takePush at h ⊢
  split at h
  · cases h
  · rename_i hlen
    cases h
    rw [List.length_append, if_neg (by omega), List.take_append_of_le_length (by omega),
      List.drop_append_of_le_length (by omega)]

lemma parsePushOnlyItem_append {b : UInt8} {rest item rest' : Bytes} (t : Bytes)
    (h : parsePushOnlyItem b rest = .ok (item, rest')) :
    parsePushOnlyItem b (rest ++ t) = .ok (item, rest' ++ t) := by
  have hsized (width : ℕ) (missing truncated : String)
      (h : (do if rest.length < width then throw (.valueError missing)
               takePush (leNat (rest.take width)) (rest.drop width) truncated) =
        Except.ok (ε := PyError) (item, rest')) :
      (do if (rest ++ t).length < width then throw (.valueError missing)
          takePush (leNat ((rest ++ t).take width)) ((rest ++ t).drop width) truncated) =
        Except.ok (ε := PyError) (item, rest' ++ t) := by
    by_cases hw : rest.length < width
    · simp [hw, throw, throwThe, MonadExceptOf.throw, bind, Except.bind] at h
    · have hw' : ¬ (rest ++ t).length < width := by rw [List.length_append]; omega
      simp only [hw, if_false] at h
      simp only [hw', if_false, List.take_append_of_le_length (not_lt.1 hw),
        List.drop_append_of_le_length (not_lt.1 hw)]
      exact takePush_append t h
  unfold parsePushOnlyItem at h ⊢
  simp only at h ⊢
  by_cases h0 : b = 0
  · rw [if_pos h0] at h ⊢
    cases h
    rfl
  rw [if_neg h0] at h ⊢
  by_cases hdirect : b.toNat ≤ 75
  · rw [if_pos hdirect] at h ⊢
    exact takePush_append t h
  rw [if_neg hdirect] at h ⊢
  by_cases h1 : b = 0x4c
  · rw [if_pos h1] at h ⊢
    exact hsized _ _ _ h
  rw [if_neg h1] at h ⊢
  by_cases h2 : b = 0x4d
  · rw [if_pos h2] at h ⊢
    exact hsized _ _ _ h
  rw [if_neg h2] at h ⊢
  by_cases h4 : b = 0x4e
  · rw [if_pos h4] at h ⊢
    exact hsized _ _ _ h
  rw [if_neg h4] at h ⊢
  split_ifs at h ⊢
  · cases h
    rfl
  · cases h
    rfl

/-- A run that reads push-only bytes and then ends properly has the items on its stack when
it comes to the bytes behind them. -/
lemma loop_of_pushes_append {ctx : Context} {fuel k : ℕ} {script t : Bytes} {items : List Bytes}
    {m n : Machine} (h : parsePushOnlyLoop fuel script = .ok items) (hfuel : script.length ≤ fuel)
    (hrest : m.rest = script ++ t) (hrun : loop ctx k m = .ok (some n)) (hn : n.rest = []) :
    ∃ k', loop ctx k' { m with rest := t, items := items.reverse ++ m.items } = .ok (some n) := by
  induction fuel generalizing script items k m with
  | zero =>
    obtain rfl : script = [] := by simpa using hfuel
    cases h
    rw [List.nil_append] at hrest
    exact ⟨k, by simpa [← hrest] using hrun⟩
  | succ fuel ih =>
    cases script with
    | nil =>
      cases h
      rw [List.nil_append] at hrest
      exact ⟨k, by simpa [← hrest] using hrun⟩
    | cons b rest =>
      simp only [parsePushOnlyLoop, bind, Except.bind] at h
      cases hitem : parsePushOnlyItem b rest with
      | error e => simp [hitem] at h
      | ok p =>
        obtain ⟨item, rest'⟩ := p
        simp only [hitem] at h
        cases hloop : parsePushOnlyLoop fuel rest' with
        | error e => simp [hloop] at h
        | ok items' =>
          simp only [hloop, pure, Except.pure, Except.ok.injEq] at h
          subst h
          rw [List.cons_append] at hrest
          cases k with
          | zero =>
            cases hrun
            simp [hn] at hrest
          | succ k =>
            obtain ⟨m', hstep, hrun⟩ := (loop_cons hrest).1 hrun
            by_cases hdirect : IsDirectPush b
            · rw [step_directPush ctx hdirect] at hstep
              cases hstep
            · have hread := step_of_parsePushOnlyItem ctx (m := { m with rest := rest ++ t })
                (parsePushOnlyItem_append t hitem) hdirect
              have hlength := step_rest_length_le hstep
              rw [hread, pushItem] at hstep
              split_ifs at hstep with hsmall
              swap
              · cases hstep
              simp only [Except.map, Except.ok.injEq, Prod.mk.injEq, true_and] at hstep
              subst hstep
              simp only [List.length_append, List.length_cons] at hlength hfuel
              obtain ⟨k', hk'⟩ := ih hloop (by omega) rfl hrun
              exact ⟨k', by simpa using hk'⟩

/-- A push-only script with a direct push behind it is refused, whatever follows. -/
lemma execute_directPush_ne_true (ctx : Context) {script t : Bytes} {items : List Bytes} {b : UInt8}
    (h : parsePushOnlyItems script = .ok items) (hb : IsDirectPush b) (stack : Items) :
    execute ctx (script ++ b :: t) stack ≠ .ok true := by
  intro htrue
  obtain ⟨-, -, n, hrun, -⟩ := execute_eq_ok_true.1 htrue
  have hn : n.rest = [] := loop_start_rest_nil hrun
  obtain ⟨k, hk⟩ := loop_of_pushes_append h (le_refl _) rfl hrun hn
  cases k with
  | zero =>
    cases hk
    cases hn
  | succ k =>
    obtain ⟨m', hstep, -⟩ := (loop_cons rfl).1 hk
    rw [step_directPush ctx hb] at hstep
    cases hstep

/-- On a script that the parser accepts, the engine gets to the end with the parser's items
on its stack exactly when no opcode is a direct push. -/
theorem runToEnd_parsePushOnlyItems_iff (ctx : Context) (script : Bytes) (items : List Bytes)
    (h : parsePushOnlyItems script = .ok items) (hsize : script.length ≤ MAX_SCRIPT_SIZE)
    (hitems : ∀ item ∈ items, item.length ≤ MAX_SCRIPT_ELEMENT_SIZE) :
    runToEnd ctx script = .ok (some items.reverse) ↔ ∀ b ∈ pushOpcodes script, ¬ IsDirectPush b := by
  have hlong : ¬ MAX_SCRIPT_SIZE < script.length := by omega
  rcases loop_of_parsePushOnlyLoop ctx h hitems (start script []) rfl (le_refl _) with
    ⟨hnone, hrun⟩ | ⟨b, hmem, hdirect, hrun⟩
  · refine ⟨fun _ => hnone, fun _ => ?_⟩
    simp only [runToEnd, hlong, if_false, hrun, bind, Except.bind, pure, Except.pure]
    simp [start]
  · refine ⟨fun hok => ?_, fun hall => absurd hdirect (hall b hmem)⟩
    simp [runToEnd, hlong, hrun, bind, Except.bind] at hok

/-- `OP_0`, two bytes by `OP_PUSHDATA1` and `OP_16`. -/
theorem runToEnd_parsePushOnlyItems_iff_example :
    runToEnd standardContext [0x00, 0x4c, 0x02, 0xaa, 0xbb, 0x60] =
        .ok (some [[0x10], [0xaa, 0xbb], []]) ↔
      ∀ b ∈ pushOpcodes [0x00, 0x4c, 0x02, 0xaa, 0xbb, 0x60], ¬ IsDirectPush b :=
  runToEnd_parsePushOnlyItems_iff standardContext [0x00, 0x4c, 0x02, 0xaa, 0xbb, 0x60]
    [[], [0xaa, 0xbb], [0x10]] (by decide) (by decide) (by decide)

/-- The parser reads one byte pushed directly; the engine has no opcode `0x01`. -/
theorem direct_push_refused :
    parsePushOnlyItems [0x01, 0x07] = .ok [[0x07]] ∧
      runToEnd standardContext [0x01, 0x07] = .error (.notAnOpcode 0x01) ∧
      runToEnd standardContext [0x01, 0x07] ≠ .ok (some [[0x07]]) := by
  have herr : runToEnd standardContext [0x01, 0x07] = .error (.notAnOpcode 0x01) := rfl
  exact ⟨rfl, herr, fun h => nomatch herr.symm.trans h⟩

end BerzCoin.Script
