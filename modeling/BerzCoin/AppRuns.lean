import BerzCoin.AppPipeline

/-! Whole calls of `on_block` and runs of them: what holds of taking up one block is carried over
the orphans that wait for it and over a list of deliveries. -/
namespace BerzCoin
open Database BlockIndex

namespace Node
variable {α β : Type}

/-- Two actions that do the same on every node with the invariant, and keep it. -/
def Same (I : Node → Prop) (x y : NodeM α) : Prop :=
  ∀ node, I node → x node = y node ∧ I (final x node)

namespace Same
variable {I : Node → Prop} {x y : NodeM α}

lemma of_keeps (h : Keeps I x) : Same I x x := fun node hI => ⟨rfl, h node hI⟩

lemma bind {f g : α → NodeM β} (hx : Same I x y) (hf : ∀ a, Same I (f a) (g a)) :
    Same I (x >>= f) (y >>= g) := by
  intro node hI
  obtain ⟨heq, hI'⟩ := hx node hI
  simp only [final, bind_apply] at hI' ⊢
  rw [← heq]
  cases hxs : x node with
  | ok a node' =>
    rw [hxs] at hI'
    exact hf a node' hI'
  | error e node' =>
    rw [hxs] at hI'
    exact ⟨rfl, hI'⟩

end Same

/-! The orphans. -/
section orphans
variable {Q : Block → Prop} {H : Hashlib} {o : Orphanage}

/-- A property that every orphan has. -/
def OrphansAll (Q : Block → Prop) (o : Orphanage) : Prop :=
  ∀ k x, o.orphans.get? k = some x → Q x.block

lemma OrphansAll.removeOrphan (h : OrphansAll Q o) (blockHash : Bytes) :
    OrphansAll Q (o.removeOrphan blockHash) := by
  unfold Orphanage.removeOrphan
  cases o.orphans.get? blockHash with
  | none => exact h
  | some orphan =>
    intro k x hx
    rw [KeyedRows.get?_delete] at hx
    split_ifs at hx
    exact h k x hx

lemma OrphansAll.evict (h : OrphansAll Q o) (rows : List (Bytes × OrphanBlock)) :
    OrphansAll Q (o.evict rows) := by
  unfold Orphanage.evict
  cases Orphanage.oldest rows with
  | none => exact h
  | some blockHash => exact h.removeOrphan blockHash

lemma OrphansAll.makeRoom (h : OrphansAll Q o) (sourcePeer : Option String) :
    OrphansAll Q (o.makeRoom sourcePeer) := by
  have hall {o : Orphanage} (h : OrphansAll Q o) : OrphansAll Q
      (if o.maxOrphans ≤ o.orphans.rows.length then o.evict o.orphans.rows else o) := by
    split_ifs
    · exact h.evict _
    · exact h
  unfold Orphanage.makeRoom
  cases sourcePeer with
  | none => exact hall h
  | some peer =>
    simp only
    split_ifs
    · exact (h.evict _).evict _
    · exact h.evict _
    · exact h.evict _
    · exact h

lemma OrphansAll.addOrphan (h : OrphansAll Q o) (clock : ℚ) {block : Block}
    (hblock : Q block) (sourcePeer : Option String) :
    OrphansAll Q (o.addOrphan H clock block sourcePeer) := by
  have hput : ∀ k x, ((o.makeRoom sourcePeer).orphans.put (block.header.hashHex H)
      ⟨block, clock⟩).get? k = some x → Q x.block := by
    intro k x hx
    rw [KeyedRows.get?_put] at hx
    split_ifs at hx
    · cases hx
      exact hblock
    · exact h.makeRoom sourcePeer k x hx
  by_cases hknown : o.orphans.contains (block.header.hashHex H) = true
  · rw [Orphanage.addOrphan, if_pos hknown]
    exact h
  · rw [Orphanage.addOrphan, if_neg hknown]
    exact hput

lemma OrphansAll.cleanupExpired (h : OrphansAll Q o) (clock : ℚ) :
    OrphansAll Q (o.cleanupExpired clock) := by
  unfold Orphanage.cleanupExpired
  generalize List.map Prod.fst _ = expired
  induction expired generalizing o with
  | nil => exact h
  | cons blockHash expired ih => exact ih (h.removeOrphan blockHash)

lemma OrphansAll.getChildren (h : OrphansAll Q o) {order : SetOrder} {parentHash : Bytes}
    {child : Block} (hchild : child ∈ o.getChildren order parentHash) : Q child := by
  obtain ⟨k, -, hk⟩ := List.mem_filterMap.1 hchild
  obtain ⟨x, hx, rfl⟩ := Option.map_eq_some_iff.1 hk
  exact h k x hx

end orphans

/-! Whole calls of `on_block`, for an invariant of the node and a property of the blocks that come
and that wait. -/
section calls
variable {cfg : NodeConfig} {v v' : StatefulValidation} {clock : ℚ}
variable {Q : Block → Prop} {I : Node → Prop}

/-- The invariant leaves the orphans free, as long as they have the property. -/
structure AllowsOrphans (Q : Block → Prop) (I : Node → Prop) : Prop where
  orphans : ∀ {node}, I node → OrphansAll Q node.orphanage
  change : ∀ {node o}, I node → OrphansAll Q o → I { node with orphanage := o }

/-- Two ways to take up a block with a known parent do the same and keep the invariant. -/
def SameChild (cfg : NodeConfig) (clock : ℚ) (Q : Block → Prop) (I : Node → Prop)
    (v v' : StatefulValidation) : Prop :=
  ∀ node block parent, I node → Q block →
    node.session.memory.getBlock block.header.prevBlockHash = some parent →
    node.session.memory.getBlock (block.header.hashHex cfg.crypto.toHashlib) = none →
    acceptChild cfg v clock block parent node = acceptChild cfg v' clock block parent node ∧
      I (final (acceptChild cfg v clock block parent) node)

lemma AllowsOrphans.acceptBlock_same (hI : AllowsOrphans Q I) (hsame : SameChild cfg clock Q I v v')
    {block : Block} (hQ : Q block) (sourcePeer : Option String) :
    Same I (acceptBlock cfg v clock block sourcePeer) (acceptBlock cfg v' clock block sourcePeer) := by
  intro node h
  simp only [acceptBlock, final, bind_apply, read_apply, id]
  cases hknown : node.session.memory.getBlock (block.header.hashHex cfg.crypto.toHashlib) with
  | some entry =>
    simp only [Option.isSome_some, if_true, pure_apply, true_and]
    exact h
  | none =>
    have hclean := hI.change h ((hI.orphans h).cleanupExpired clock)
    simp only [Option.isSome_none, Bool.false_eq_true, if_false, bind_apply, modify_apply]
    cases hparent : node.session.memory.getBlock block.header.prevBlockHash with
    | none =>
      simp only [bind_apply, modify_apply, pure_apply, true_and]
      exact hI.change h ((hI.orphans hclean).addOrphan clock hQ sourcePeer)
    | some parent => exact hsame _ block parent hclean hQ hparent hknown

variable {f g : Block → NodeM BlockReply}

lemma AllowsOrphans.processChildren_same (hI : AllowsOrphans Q I)
    (hfg : ∀ child, Q child → Same I (f child) (g child)) {children : List Block}
    (hQ : ∀ child ∈ children, Q child) (progress : Option Bytes) :
    Same I (processChildren cfg clock f children progress)
      (processChildren cfg clock g children progress) := by
  induction children generalizing progress with
  | nil => exact .of_keeps (.ret _)
  | cons child children ih =>
    have hchild := hQ child (List.mem_cons_self ..)
    have hrest := ih fun x hx => hQ x (List.mem_cons_of_mem _ hx)
    refine .bind (.of_keeps (.change ?_)) fun _ => .bind (hfg child hchild) fun reply => ?_
    · intro node h
      exact hI.change h ((hI.orphans h).removeOrphan _)
    · split
      · exact hrest _
      · simp only
        split
        · refine .bind (.of_keeps (.change ?_)) fun _ => hrest _
          intro node h
          exact hI.change h ((hI.orphans h).addOrphan clock hchild none)
        · exact hrest _

lemma AllowsOrphans.processOrphanChildren_same (hI : AllowsOrphans Q I)
    (hfg : ∀ child, Q child → Same I (f child) (g child)) (rounds : ℕ) (parentHash : Bytes) :
    Same I (processOrphanChildren cfg clock f rounds parentHash)
      (processOrphanChildren cfg clock g rounds parentHash) := by
  induction rounds generalizing parentHash with
  | zero => exact .of_keeps (.ret _)
  | succ rounds ih =>
    intro node h
    have hchildren : ∀ child ∈ node.orphanage.getChildren cfg.setOrder parentHash, Q child :=
      fun child hchild => (hI.orphans h).getChildren hchild
    simp only [processOrphanChildren, final, bind_apply, get_apply]
    cases hc : node.orphanage.getChildren cfg.setOrder parentHash with
    | nil =>
      simp only [pure_apply, true_and]
      exact h
    | cons child children =>
      rw [hc] at hchildren
      refine Same.bind (hI.processChildren_same hfg hchildren none) (fun progress => ?_) node h
      cases progress with
      | none => exact .of_keeps (.ret _)
      | some childHash => exact ih childHash

/-- A call of `on_block`, with those for the orphans inside it. -/
lemma AllowsOrphans.onBlockWithin_same (hI : AllowsOrphans Q I)
    (hsame : SameChild cfg clock Q I v v') (depth : ℕ) {block : Block} (hQ : Q block)
    (sourcePeer : Option String) :
    Same I (onBlockWithin cfg v clock depth block sourcePeer)
      (onBlockWithin cfg v' clock depth block sourcePeer) := by
  induction depth generalizing block sourcePeer with
  | zero => exact hI.acceptBlock_same hsame hQ sourcePeer
  | succ depth ih =>
    refine .bind (hI.acceptBlock_same hsame hQ sourcePeer) fun reply => ?_
    simp only
    split
    · refine .bind (.of_keeps .look) fun node => .bind ?_ fun _ => .of_keeps (.ret _)
      exact hI.processOrphanChildren_same (fun child hchild => ih hchild none) _ _
    · exact .of_keeps (.ret _)

/-- An invariant that taking up a block keeps holds after every call of `on_block`. -/
lemma AllowsOrphans.onBlock_keeps (hI : AllowsOrphans Q I)
    (hchild : ∀ node block parent, I node → Q block →
      node.session.memory.getBlock block.header.prevBlockHash = some parent →
      node.session.memory.getBlock (block.header.hashHex cfg.crypto.toHashlib) = none →
      I (final (acceptChild cfg (validateBlockStateful cfg clock) clock block parent) node))
    {block : Block} (hQ : Q block) (sourcePeer : Option String) :
    Keeps I (onBlock cfg clock block sourcePeer) := by
  refine .bind .look fun node₀ => ?_
  have hsame : SameChild cfg clock Q I (validateBlockStateful cfg clock)
      (validateBlockStateful cfg clock) := fun node block parent h hQ hparent hnew =>
    ⟨rfl, hchild node block parent h hQ hparent hnew⟩
  exact fun node h => (hI.onBlockWithin_same hsame _ hQ sourcePeer node h).2

end calls

/-! Runs. -/

structure Delivery where
  clock : ℚ
  block : Block
  sourcePeer : Option String

/-- `on_block` with another function in the place of `validate_block_stateful`. -/
def onBlockBy (cfg : NodeConfig) (validate : ℚ → StatefulValidation) (d : Delivery) :
    NodeM BlockReply := do
  onBlockWithin cfg (validate d.clock) d.clock ((← get).orphanage.orphans.rows.length + 1) d.block
    d.sourcePeer

/-- The blocks of a list are delivered one after the other, also after one that raised. -/
def deliver (step : Delivery → NodeM BlockReply) :
    List Delivery → Node → List (Except PyError BlockReply) × Node
  | [], node => ([], node)
  | d :: ds, node =>
    match step d node with
    | .ok reply node' => ((deliver step ds node').1.cons (.ok reply), (deliver step ds node').2)
    | .error e node' => ((deliver step ds node').1.cons (.error e), (deliver step ds node').2)

lemma deliver_same {I : Node → Prop} {f g : Delivery → NodeM BlockReply} {ds : List Delivery}
    (hfg : ∀ d ∈ ds, Same I (f d) (g d)) {node : Node} (h : I node) :
    deliver f ds node = deliver g ds node := by
  induction ds generalizing node with
  | nil => rfl
  | cons d ds ih =>
    obtain ⟨heq, hI⟩ := hfg d (List.mem_cons_self ..) node h
    have hrest : ∀ {node}, I node → deliver f ds node = deliver g ds node :=
      ih fun x hx => hfg x (List.mem_cons_of_mem _ hx)
    rw [deliver, deliver, ← heq]
    unfold final at hI
    cases hd : f d node with
    | ok reply node' =>
      rw [hd] at hI
      simp only [hrest hI]
    | error e node' =>
      rw [hd] at hI
      simp only [hrest hI]

lemma deliver_keeps {I : Node → Prop} {step : Delivery → NodeM BlockReply} {ds : List Delivery}
    (hstep : ∀ d ∈ ds, Keeps I (step d)) {node : Node} (h : I node) : I (deliver step ds node).2 := by
  induction ds generalizing node with
  | nil => exact h
  | cons d ds ih =>
    have hnext := hstep d (List.mem_cons_self ..) node h
    have hrest : ∀ {node}, I node → I (deliver step ds node).2 :=
      ih fun x hx => hstep x (List.mem_cons_of_mem _ hx)
    rw [deliver]
    unfold final at hnext
    cases hd : step d node with
    | ok reply node' =>
      rw [hd] at hnext
      exact hrest hnext
    | error e node' =>
      rw [hd] at hnext
      exact hrest hnext

end Node
end BerzCoin
