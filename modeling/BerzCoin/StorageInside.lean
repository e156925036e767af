import BerzCoin.StorageDatabase

/-! What client code does inside a transaction is a function of the data it sees and of the
memory of the process. -/
namespace BerzCoin

def Session.data {σ ι : Type} (s : Session σ ι) : σ × ι := (s.conn.current, s.memory)

/-- A result with its session reduced to what the code can see. -/
def Db.project {σ ι α : Type} :
    EStateM.Result PyError (Session σ ι) α → EStateM.Result PyError (σ × ι) α
  | .ok a s => .ok a s.data
  | .error e s => .error e s.data

namespace Database
variable {σ ι α β : Type}

/-- A session with a transaction open. -/
def openSession (d : σ × ι) : Session σ ι := ⟨⟨d.1, some ⟨d.1, [], false, openedByBegin⟩⟩, d.2⟩

/-- The effect of an action inside a transaction. -/
def inside (x : Db σ ι α) : EStateM PyError (σ × ι) α := fun d => Db.project (x (openSession d))

/-- The session with other data and memory. -/
def put (s : Session σ ι) (data : σ) (memory : ι) : Session σ ι := ⟨s.conn.write data, memory⟩

section put
variable (s : Session σ ι) (data data' : σ) (m m' : ι)

@[simp] lemma put_put : put (put s data m) data' m' = put s data' m' := by
  obtain ⟨⟨file, _ | t⟩, memory⟩ := s <;> rfl

@[simp] lemma put_current : (put s data m).conn.current = data := SqlConnection.current_write _ _

@[simp] lemma put_memory : (put s data m).memory = m := rfl

@[simp] lemma put_data : (put s data m).data = (data, m) := by simp [Session.data]

@[simp] lemma put_inTransaction : (put s data m).conn.inTransaction = s.conn.inTransaction := by
  obtain ⟨⟨file, _ | t⟩, memory⟩ := s <;> rfl

lemma put_self : put s s.conn.current s.memory = s := by
  obtain ⟨⟨file, _ | t⟩, memory⟩ := s <;> rfl

lemma query_apply (f : σ → α) : (execute (.query f) : Db σ ι α) s = .ok (f s.conn.current) s := by
  have hs := put_self s
  simp only [put] at hs
  simp [execute, Statement.query, hs]

lemma onMemory_apply (f : ι → α × ι) :
    (onMemory f : Db σ ι α) s = .ok (f s.memory).1 (put s s.conn.current (f s.memory).2) := by
  obtain ⟨⟨file, _ | t⟩, memory⟩ := s <;> rfl

lemma change_apply {s : Session σ ι} (h : s.conn.inTransaction = true) (f : σ → σ) :
    (execute (.change f) : Db σ ι Unit) s = .ok () (put s (f s.conn.current) s.memory) := by
  simp [execute_of_open _ h, Statement.change, put]

/-- A change leaves a transaction open, whether or not it found one. -/
lemma change_opens (f : σ → σ) :
    ∃ s', (execute (.change f) : Db σ ι Unit) s = .ok () s' ∧ s'.conn.current = f s.conn.current ∧
      s'.conn.inTransaction = true ∧ s'.memory = s.memory := by
  refine ⟨_, rfl, ?_, ?_, rfl⟩
  · simp [Statement.change]
  · simp [Statement.change]

end put

/-- Two results with the same outcome and the same data, both in an open transaction. -/
def Agrees : EStateM.Result PyError (Session σ ι) α → EStateM.Result PyError (Session σ ι) α → Prop
  | .ok a s, .ok b t =>
    a = b ∧ s.data = t.data ∧ s.conn.inTransaction = true ∧ t.conn.inTransaction = true
  | .error e s, .error e' t =>
    e = e' ∧ s.data = t.data ∧ s.conn.inTransaction = true ∧ t.conn.inTransaction = true
  | _, _ => False

theorem Client.agrees {x : Db σ ι α} (hx : Client x) {s t : Session σ ι} (h : s.data = t.data)
    (hs : s.conn.inTransaction = true) (ht : t.conn.inTransaction = true) :
    Agrees (x s) (x t) := by
  induction hx generalizing s t with
  | ret a => exact ⟨rfl, h, hs, ht⟩
  | raise e => exact ⟨rfl, h, hs, ht⟩
  | memory f =>
    have hm : s.memory = t.memory := congrArg Prod.snd h
    have hc : s.conn.current = t.conn.current := congrArg Prod.fst h
    simp only [onMemory, Agrees, Session.data, hm, hc, hs, ht, and_self]
  | execute stmt =>
    have hm : s.memory = t.memory := congrArg Prod.snd h
    have hc : s.conn.current = t.conn.current := congrArg Prod.fst h
    rw [execute_of_open stmt hs, execute_of_open stmt ht, hc]
    cases stmt.run t.conn.current with
    | error e => exact ⟨rfl, h, hs, ht⟩
    | ok p =>
      refine ⟨rfl, ?_, (SameTransaction.write hs p.1).isOpen, (SameTransaction.write ht p.1).isOpen⟩
      simp [Session.data, hm]
  | @bind α β x f hx hf ihx ihf =>
    have h1 := ihx h hs ht
    rw [Db.bind_apply, Db.bind_apply]
    cases hxs : x s with
    | ok a s' =>
      cases hxt : x t with
      | ok b t' =>
        rw [hxs, hxt] at h1
        obtain ⟨rfl, hd, hs', ht'⟩ := h1
        exact ihf a hd hs' ht'
      | error e t' =>
        rw [hxs, hxt] at h1
        exact h1.elim
    | error e s' =>
      cases hxt : x t with
      | ok b t' =>
        rw [hxs, hxt] at h1
        exact h1.elim
      | error e' t' =>
        rw [hxs, hxt] at h1
        exact h1
  | @handle α x k hx hk ihx ihk =>
    have h1 := ihx h hs ht
    rw [Db.tryCatch_apply, Db.tryCatch_apply]
    cases hxs : x s with
    | ok a s' =>
      cases hxt : x t with
      | ok b t' =>
        rw [hxs, hxt] at h1
        exact h1
      | error e t' =>
        rw [hxs, hxt] at h1
        exact h1.elim
    | error e s' =>
      cases hxt : x t with
      | ok b t' =>
        rw [hxs, hxt] at h1
        exact h1.elim
      | error e' t' =>
        rw [hxs, hxt] at h1
        obtain ⟨rfl, hd, hs', ht'⟩ := h1
        exact ihk e hd hs' ht'
  | @transaction α body hbody ih =>
    have h1 := ih h hs ht
    simp only [Database.transaction, hs, ht, if_true]
    cases hxs : body s with
    | ok a s' =>
      cases hxt : body t with
      | ok b t' =>
        rw [hxs, hxt] at h1
        exact h1
      | error e t' =>
        rw [hxs, hxt] at h1
        exact h1.elim
    | error e s' =>
      cases hxt : body t with
      | ok b t' =>
        rw [hxs, hxt] at h1
        exact h1.elim
      | error e' t' =>
        rw [hxs, hxt] at h1
        obtain ⟨rfl, hd, hs', ht'⟩ := h1
        exact ⟨rfl, hd, hs', ht'⟩

lemma Agrees.project_eq {r r' : EStateM.Result PyError (Session σ ι) α} (h : Agrees r r') :
    Db.project r = Db.project r' := by
  cases r with
  | ok a s =>
    cases r' with
    | ok b t =>
      obtain ⟨rfl, hd, -, -⟩ := h
      simp [Db.project, hd]
    | error e t => exact h.elim
  | error e s =>
    cases r' with
    | ok b t => exact h.elim
    | error e' t =>
      obtain ⟨rfl, hd, -, -⟩ := h
      simp [Db.project, hd]

/-- In an open transaction an action has its effect on the data. -/
theorem Client.project_eq_inside {x : Db σ ι α} (hx : Client x) {s : Session σ ι}
    (h : s.conn.inTransaction = true) : Db.project (x s) = inside x s.data :=
  (hx.agrees (s := s) (t := openSession s.data) rfl h rfl).project_eq

section rules

lemma inside_pure (a : α) (d : σ × ι) : inside (pure a : Db σ ι α) d = .ok a d := rfl

lemma inside_execute (stmt : Statement σ α) (d : σ × ι) :
    inside (execute stmt : Db σ ι α) d =
      match stmt.run d.1 with
      | .ok (data, a) => .ok a (data, d.2)
      | .error e => .error e d := by
  have hopen : (openSession d : Session σ ι).conn.inTransaction = true := rfl
  have hcur : (openSession d : Session σ ι).conn.current = d.1 := rfl
  simp only [inside, execute_of_open stmt hopen, hcur]
  cases stmt.run d.1 <;> rfl

lemma inside_bind {x : Db σ ι α} {f : α → Db σ ι β} (hx : Client x) (hf : ∀ a, Client (f a))
    (d : σ × ι) :
    inside (x >>= f) d =
      match inside x d with
      | .ok a d' => inside (f a) d'
      | .error e d' => .error e d' := by
  have hsame := hx.sameTransaction (s := openSession d) rfl
  simp only [inside, Db.bind_apply]
  simp only [Db.final] at hsame
  cases hxs : x (openSession d) with
  | error e s' => rfl
  | ok a s' =>
    rw [hxs] at hsame
    exact (hf a).project_eq_inside hsame.isOpen

lemma inside_tryCatch {x : Db σ ι α} {k : PyError → Db σ ι α} (hx : Client x)
    (hk : ∀ e, Client (k e)) (d : σ × ι) :
    inside (tryCatch x k : Db σ ι α) d =
      match inside x d with
      | .ok a d' => .ok a d'
      | .error e d' => inside (k e) d' := by
  have hsame := hx.sameTransaction (s := openSession d) rfl
  simp only [inside, Db.tryCatch_apply]
  simp only [Db.final] at hsame
  cases hxs : x (openSession d) with
  | ok a s' => rfl
  | error e s' =>
    rw [hxs] at hsame
    exact (hk e).project_eq_inside hsame.isOpen

lemma inside_transaction (body : Db σ ι α) (d : σ × ι) :
    inside (transaction body) d =
      match inside body d with
      | .ok a d' => .ok a d'
      | .error e d' => .error (.storageError ("Transaction failed: " ++ e.message)) d' := by
  have hopen : (openSession d : Session σ ι).conn.inTransaction = true := rfl
  simp only [inside, transaction, hopen, if_true]
  cases body (openSession d) <;> rfl

lemma inside_execute_ok {stmt : Statement σ α} {d d' : σ × ι} {a : α} :
    inside (execute stmt : Db σ ι α) d = .ok a d' ↔ stmt.run d.1 = .ok (d'.1, a) ∧ d'.2 = d.2 := by
  rw [inside_execute]
  cases stmt.run d.1 with
  | error e => simp
  | ok p =>
    obtain ⟨data, b⟩ := p
    obtain ⟨data', m⟩ := d'
    simp only [EStateM.Result.ok.injEq, Prod.mk.injEq, Except.ok.injEq]
    constructor
    · rintro ⟨hb, hdata, hm⟩
      exact ⟨⟨hdata, hb⟩, hm.symm⟩
    · rintro ⟨⟨hdata, hb⟩, hm⟩
      exact ⟨hb, hdata, hm.symm⟩

lemma inside_bind_ok {x : Db σ ι α} {f : α → Db σ ι β} (hx : Client x) (hf : ∀ a, Client (f a))
    {d d'' : σ × ι} {b : β} :
    inside (x >>= f) d = .ok b d'' ↔ ∃ a d', inside x d = .ok a d' ∧ inside (f a) d' = .ok b d'' := by
  rw [inside_bind hx hf]
  cases inside x d with
  | ok a d' =>
    constructor
    · intro h
      exact ⟨a, d', rfl, h⟩
    · rintro ⟨a', d1, h1, h2⟩
      cases h1
      exact h2
  | error e d' =>
    constructor
    · intro h
      cases h
    · rintro ⟨a', d1, h1, -⟩
      cases h1

end rules

/-- A block that returns has done to the data what its body does inside a transaction,
whether or not it opened one. -/
lemma transaction_ok_iff {body : Db σ ι α} (hbody : Client body) {s : Session σ ι} {a : α}
    {d : σ × ι} :
    inside body s.data = .ok a d ↔ ∃ s', transaction body s = .ok a s' ∧ s'.data = d := by
  by_cases hopen : s.conn.inTransaction = true
  · rw [← hbody.project_eq_inside hopen]
    simp only [transaction, hopen, if_true]
    cases body s with
    | ok b s' => simp [Db.project]
    | error e s' => simp [Db.project]
  · have hproj := hbody.project_eq_inside (s := { s with conn := s.conn.begin }) rfl
    have hdata : Session.data { s with conn := s.conn.begin } = s.data := rfl
    rw [hdata] at hproj
    simp only [transaction, hopen, ← hproj]
    cases body { s with conn := s.conn.begin } with
    | ok b s' =>
      have hcommit : Session.data { s' with conn := s'.conn.commit } = s'.data := rfl
      simp [Db.project, hcommit]
    | error e s' => simp [Db.project]

/-- A block that raises keeps the writes of its body if it found a transaction open. -/
lemma transaction_error {body : Db σ ι α} (hbody : Client body) {s s' : Session σ ι} {e : PyError}
    (h : transaction body s = .error e s') :
    ∃ e' d, inside body s.data = .error e' d ∧ s'.memory = d.2 ∧
      s'.conn.current = if s.conn.inTransaction then d.1 else s.conn.current := by
  by_cases hopen : s.conn.inTransaction = true
  · rw [← hbody.project_eq_inside hopen]
    simp only [transaction, hopen, if_true] at h
    cases hb : body s with
    | ok b t => simp [hb] at h
    | error e' t =>
      simp only [hb] at h
      cases h
      exact ⟨e', s'.data, rfl, rfl, by simp [hopen, Session.data]⟩
  · have hclosed : s.conn.inTransaction = false := by simpa using hopen
    have hconn := transaction_error_of_closed hbody hclosed h
    have hproj := hbody.project_eq_inside (s := { s with conn := s.conn.begin }) rfl
    have hdata : Session.data { s with conn := s.conn.begin } = s.data := rfl
    rw [hdata] at hproj
    simp only [transaction, hclosed] at h
    cases hb : body { s with conn := s.conn.begin } with
    | ok b t => simp [hb] at h
    | error e' t =>
      simp only [hb] at h
      rw [hb] at hproj
      refine ⟨e', t.data, hproj.symm, ?_, ?_⟩
      · cases h
        rfl
      · rw [hconn, hclosed]
        rfl

/-! What code keeps of the memory of the process, whatever becomes of the connection. -/

/-- The code keeps a property of the memory, also when it raises. -/
def Preserves (P : ι → Prop) (x : Db σ ι α) : Prop := ∀ s, P s.memory → P (x.final s).memory

/-- The memory at the end of a run inside a transaction. -/
def Ends (P : ι → Prop) : EStateM.Result PyError (σ × ι) α → Prop
  | .ok _ d => P d.2
  | .error _ d => P d.2

namespace Preserves
variable {P : ι → Prop} {x : Db σ ι α}

lemma ret (a : α) : Preserves P (pure a : Db σ ι α) := fun _ h => h

lemma raise (e : PyError) : Preserves P (throw e : Db σ ι α) := fun _ h => h

lemma execute (stmt : Statement σ α) : Preserves P (Database.execute stmt : Db σ ι α) := by
  intro s h
  unfold Db.final Database.execute
  simp only
  cases stmt.run (if stmt.isDml = true then s.conn.openImplicitly else s.conn).current <;> exact h

lemma onMemory {f : ι → α × ι} (hf : ∀ m, P m → P (f m).2) :
    Preserves P (Database.onMemory f : Db σ ι α) := fun s h => hf s.memory h

lemma bind {f : α → Db σ ι β} (hx : Preserves P x) (hf : ∀ a, Preserves P (f a)) :
    Preserves P (x >>= f) := by
  intro s h
  have h1 := hx s h
  rw [Db.final_bind]
  unfold Db.final at h1
  cases hxs : x s with
  | ok a s' =>
    rw [hxs] at h1
    exact hf a s' h1
  | error e s' =>
    rw [hxs] at h1
    exact h1

lemma handle {k : PyError → Db σ ι α} (hx : Preserves P x) (hk : ∀ e, Preserves P (k e)) :
    Preserves P (tryCatch x k : Db σ ι α) := by
  intro s h
  have h1 := hx s h
  rw [Db.final_tryCatch]
  unfold Db.final at h1
  cases hxs : x s with
  | ok a s' =>
    rw [hxs] at h1
    exact h1
  | error e s' =>
    rw [hxs] at h1
    exact hk e s' h1

lemma transaction (hx : Preserves P x) : Preserves P (Database.transaction x) := by
  intro s h
  unfold Db.final Database.transaction
  by_cases hopen : s.conn.inTransaction = true
  · have h1 := hx s h
    unfold Db.final at h1
    simp only [hopen, if_true]
    cases hxs : x s with
    | ok a s' =>
      rw [hxs] at h1
      exact h1
    | error e s' =>
      rw [hxs] at h1
      exact h1
  · have h1 := hx { s with conn := s.conn.begin } h
    unfold Db.final at h1
    simp only [hopen]
    cases hxs : x { s with conn := s.conn.begin } with
    | ok a s' =>
      rw [hxs] at h1
      exact h1
    | error e s' =>
      rw [hxs] at h1
      exact h1

/-- The memory in which the code ends inside a transaction. -/
lemma inside {d : σ × ι} (hx : Preserves P x) (h : P d.2) : Ends P (Database.inside x d) := by
  have h1 := hx (openSession d) h
  unfold Db.final at h1
  unfold Database.inside
  cases hxs : x (openSession d) with
  | ok a s' =>
    rw [hxs] at h1
    exact h1
  | error e s' =>
    rw [hxs] at h1
    exact h1

end Preserves

end Database
end BerzCoin
