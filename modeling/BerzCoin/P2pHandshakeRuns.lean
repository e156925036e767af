import BerzCoin.P2pHandshakeTurns

/-! Every order of turns of two nodes that greet each other. -/
namespace BerzCoin
open DuplexLink ChunkedReader

namespace HandshakePeer
variable {H : Hashlib} {p q : HandshakePeer} {u v : Bytes} {t : Turn HandshakePeer UInt8}

lemma Lossy.reader (hdigest : ∀ data, 4 ≤ (H.hash256 data).length) (hp : Synced H p q u)
    (hq : Synced H q p v) (hmove : Lossy H p u t) : Synced H t.state q t.rest := by
  rcases hmove with ⟨cuts, hturn⟩ | ⟨withinPayload, p', hgive, rfl⟩
  · exact (turn_outcome hdigest hp hq hturn).reader hp
  · have hquits := quits_giveUp hgive
    exact ⟨hquits.configured hp.configured, hquits.phase hp.phase⟩

lemma Lossy.sends (hdigest : ∀ data, 4 ≤ (H.hash256 data).length) (hp : Synced H p q u)
    (hq : Synced H q p v) (hmove : Lossy H p u t) :
    ∃ sent, p.Sends t.state sent ∧ t.written = wire H p.settings.network sent := by
  rcases hmove with ⟨cuts, hturn⟩ | ⟨withinPayload, p', hgive, rfl⟩
  · exact (turn_outcome hdigest hp hq hturn).sends hp
  · exact ⟨[], (quits_giveUp hgive).sends, rfl⟩

/-- Every turn keeps both directions in step. -/
lemma synced_kept (hdigest : ∀ data, 4 ≤ (H.hash256 data).length) : Kept (Lossy H) (Synced H) where
  reader := Lossy.reader hdigest
  writer := by
    intro p q u v t hp hq hmove
    obtain ⟨sent, hsends, hwritten⟩ := Lossy.sends hdigest hp hq hmove
    rw [hwritten]
    exact ⟨hq.configured, hq.phase.writer hsends⟩

/-- Two nodes as they were configured, before anything is sent. -/
structure Fresh (l : Link HandshakePeer UInt8) : Prop where
  configured : ∀ s, (l.state s).Configured
  start : ∀ s, (l.state s).stage = .start
  unanswered : ∀ s, (l.state s).Unanswered
  noReason : ∀ s, (l.state s).disconnectReason = ""
  unread : ∀ s, l.unread s = []

variable {l₀ l : Link HandshakePeer UInt8} {n : ℕ}

lemma Fresh.holds (h : Fresh l₀) : Holds (Synced H) l₀ := by
  intro s
  refine ⟨h.configured s, ?_⟩
  simp only [Phase, h.start s]
  refine ⟨h.unanswered s, ?_⟩
  rw [h.unread s, sentBy, if_pos (h.start s.other)]
  rfl

section runs
variable (hdigest : ∀ data, 4 ≤ (H.hash256 data).length) (hfresh : Fresh l₀)
include hdigest hfresh

lemma Run.synced (hrun : Run (Lossy H) l₀ n l) : Holds (Synced H) l :=
  (synced_kept hdigest).run hfresh.holds hrun

lemma Run.greeting (hrun : Run (Lossy H) l₀ n l) (s : Side) :
    (l.state s).greeting = (l₀.state s).greeting := by
  refine (synced_kept hdigest).static (f := HandshakePeer.greeting) ?_ hfresh.holds hrun s
  intro p q u v t hp hq hmove
  obtain ⟨sent, hsends, -⟩ := Lossy.sends hdigest hp hq hmove
  exact hsends.greeting

lemma Run.settings (hrun : Run (Lossy H) l₀ n l) (s : Side) :
    (l.state s).settings = (l₀.state s).settings := by
  refine (synced_kept hdigest).static (f := HandshakePeer.settings) ?_ hfresh.holds hrun s
  intro p q u v t hp hq hmove
  obtain ⟨sent, hsends, -⟩ := Lossy.sends hdigest hp hq hmove
  exact hsends.settings

end runs

lemma Phase.isComplete_iff (h : Phase H p q u) :
    p.handshake.isComplete = true ↔ p.stage = .complete := by
  rw [VersionHandshake.isComplete, Bool.and_eq_true]
  cases hstage : p.stage <;> simp only [Phase, hstage] at h
  case complete => simp [h.1.verackSent, h.2.1]
  case start | awaitVersion => simp [h.1.verackReceived]
  case awaitVerack => simp [h.2.1]
  case failed => simp [h.1]

/-! Two nodes of one network that give nothing up. -/

structure Agreeing (H : Hashlib) (p q : HandshakePeer) (u : Bytes) : Prop where
  synced : Synced H p q u
  network : p.settings.network = q.settings.network
  alive : p.stage ≠ .failed

/-- The turns that are left. -/
def turnsLeft (p : HandshakePeer) : ℕ :=
  match p.stage with
  | .start => 3
  | .awaitVersion => 2
  | .awaitVerack => 1
  | .complete | .failed | .raised _ => 0

/-- A turn of a node that agrees with the other one takes it a stage further. -/
lemma Outcome.agreeing (h : Outcome H p q u t) (hnetwork : p.settings.network = q.settings.network) :
    t.state.stage ≠ .failed ∧ t.state.turnsLeft + 1 = p.turnsLeft := by
  cases h with
  | greet hstage => exact ⟨by simp [greeted], by simp [turnsLeft, greeted, hstage]⟩
  | takeVersion hstage hgreeted hnetwork => exact ⟨by simp [accepting], by simp [turnsLeft, accepting, hstage]⟩
  | refuse hstage hother => exact absurd hnetwork hother
  | takeVerack hstage hsent => exact ⟨by simp [completing], by simp [turnsLeft, completing, hstage]⟩

lemma agreeing_kept (hdigest : ∀ data, 4 ≤ (H.hash256 data).length) :
    Kept (Lossless H) (Agreeing H) where
  reader := by
    intro p q u v t hp hq hmove
    obtain ⟨cuts, hturn⟩ := hmove
    have houtcome := turn_outcome hdigest hp.synced hq.synced hturn
    obtain ⟨sent, hsends, -⟩ := houtcome.sends hp.synced
    refine ⟨houtcome.reader hp.synced, ?_, (houtcome.agreeing hp.network).1⟩
    rw [hsends.settings, hp.network]
  writer := by
    intro p q u v t hp hq hmove
    obtain ⟨sent, hsends, hwritten⟩ := Lossy.sends hdigest hp.synced hq.synced (.inl hmove)
    refine ⟨(synced_kept hdigest).writer hp.synced hq.synced (.inl hmove), ?_, hq.alive⟩
    rw [hsends.settings, hq.network]

/-- What has come to a node that waits. -/
lemma exists_turn (hdigest : ∀ data, 4 ≤ (H.hash256 data).length) (hp : Agreeing H p q u)
    (hq : Agreeing H q p v)
    (hcame : p.stage = .start ∨ (p.stage = .awaitVersion ∧ q.stage ≠ .start) ∨
      (p.stage = .awaitVerack ∧ q.handshake.verackSent = true)) :
    ∃ t, Lossless H p u t := by
  obtain ⟨⟨hconf, hphase⟩, hnetwork, -⟩ := hp
  rcases hcame with hstage | ⟨hstage, hgreeted⟩ | ⟨hstage, hsent⟩
  · exact ⟨_, fun _ => 0, turn_start hconf hstage⟩
  · simp only [Phase, hstage] at hphase
    obtain ⟨-, rfl⟩ := hphase
    exact ⟨_, fun _ => 0,
      turn_awaitVersion hdigest hconf hq.synced.configured hstage hgreeted hnetwork⟩
  · simp only [Phase, hstage] at hphase
    obtain ⟨haccepted, -, rfl⟩ := hphase
    exact ⟨_, fun _ => 0, turn_awaitVerack hdigest hconf haccepted hstage hsent⟩

/-- Unless a node is done, it or the other one can take a turn. -/
lemma complete_or_turn (hdigest : ∀ data, 4 ≤ (H.hash256 data).length) (hp : Agreeing H p q u)
    (hq : Agreeing H q p v) :
    p.stage = .complete ∨ (∃ t, Lossless H p u t) ∨ ∃ t, Lossless H q v t := by
  have hphase := hp.synced.phase
  cases hstage : p.stage with
  | complete => exact .inl rfl
  | failed => exact absurd hstage hp.alive
  | raised e => simp [Phase, hstage] at hphase
  | start => exact .inr (.inl (exists_turn hdigest hp hq (.inl hstage)))
  | awaitVersion =>
    by_cases hgreeted : q.stage = .start
    · exact .inr (.inr (exists_turn hdigest hq hp (.inl hgreeted)))
    · exact .inr (.inl (exists_turn hdigest hp hq (.inr (.inl ⟨hstage, hgreeted⟩))))
  | awaitVerack =>
    simp only [Phase, hstage] at hphase
    have hother := hq.synced.phase
    cases hsent : q.handshake.verackSent with
    | true => exact .inr (.inl (exists_turn hdigest hp hq (.inr (.inr ⟨hstage, hsent⟩))))
    | false =>
      -- the other node has greeted and not answered, so it waits for the version
      cases hstage' : q.stage <;> simp only [Phase, hstage'] at hother
      case start => exact absurd hstage' hphase.1.greeted
      case failed => exact absurd hstage' hq.alive
      case awaitVersion =>
        exact .inr (.inr (exists_turn hdigest hq hp (.inr (.inl ⟨hstage', by simp [hstage]⟩))))
      case awaitVerack | complete => simp [hother.1.verackSent] at hsent

/-- The loop after the handshake finds the sendcmpct of the other node. -/
lemma messages_sendcmpct (hdigest : ∀ data, 4 ≤ (H.hash256 data).length) (hp : p.Configured)
    (cuts : ℕ → ℕ) :
    Peer.messages H p.settings ⟨wire H p.settings.network [sendcmpctMessage], cuts⟩ =
      [sendcmpctMessage] := by
  have hsent : ∀ m ∈ [sendcmpctMessage], Peer.Deliverable H p.settings m := by
    intro m hm
    rw [List.mem_singleton.1 hm]
    exact deliverable_sendcmpct hdigest hp
  have hwritten : Peer.writeMessages H p.settings.network [sendcmpctMessage] =
      .ok (wire H p.settings.network [sendcmpctMessage] ++ []) := by
    rw [Peer.writeMessages, @encode_wire H sendcmpctMessage _ (by decide)]
    rfl
  rw [List.append_nil] at hwritten
  exact (Peer.handleMessages_eq_iff hsent hwritten (Nat.le_refl _)).2
    (Peer.readsWithin_of_one hp.minRead _ _)

lemma Agreeing.turnsLeft_eq_zero (h : Agreeing H p q u) (hzero : p.turnsLeft = 0) :
    p.stage = .complete := by
  have hphase := h.synced.phase
  cases hstage : p.stage <;> simp only [turnsLeft, hstage] at hzero
  case complete => rfl
  case failed => exact absurd hstage h.alive
  case raised e => simp [Phase, hstage] at hphase
  all_goals omega

section one_network
variable (hdigest : ∀ data, 4 ≤ (H.hash256 data).length) (hfresh : Fresh l₀)
  (hnetwork : (l₀.state .caller).settings.network = (l₀.state .callee).settings.network)
include hfresh hnetwork

omit hdigest in
lemma Fresh.agreeing : Holds (Agreeing H) l₀ := by
  intro s
  refine ⟨hfresh.holds s, ?_, by simp [hfresh.start s]⟩
  cases s with
  | caller => exact hnetwork
  | callee => exact hnetwork.symm

include hdigest

lemma turnsLeft_eq (hrun : Run (Lossless H) l₀ n l) : n + total turnsLeft l = 6 := by
  have hturns : n + total turnsLeft l = total turnsLeft l₀ :=
    (agreeing_kept hdigest).turns_le (fun hp hq hmove => by
      obtain ⟨cuts, hturn⟩ := hmove
      exact ((turn_outcome hdigest hp.synced hq.synced hturn).agreeing hp.network).2)
      (hfresh.agreeing hnetwork) hrun
  rw [hturns]
  simp [total, turnsLeft, hfresh.start]

lemma exists_step_of_lt (hrun : Run (Lossless H) l₀ n l) (hlt : n < 6) :
    ∃ l', Step (Lossless H) l l' := by
  have hholds := (agreeing_kept hdigest).run (hfresh.agreeing hnetwork) hrun
  have hcount := turnsLeft_eq hdigest hfresh hnetwork hrun
  rcases exists_step_or (P := fun p : HandshakePeer => p.stage = .complete) (fun s => by
    have hother := hholds s.other
    rw [Side.other_other] at hother
    exact complete_or_turn hdigest (hholds s) hother) with hstep | hcomplete
  · exact hstep
  · simp only [total, turnsLeft, hcomplete] at hcount
    omega

end one_network

/-! Two nodes of different networks. -/

/-- Why a node that has seen nothing of its own network has failed. -/
def Rebuffed (p : HandshakePeer) : Prop :=
  match p.stage with
  | .start => p.disconnectReason = ""
  | .failed =>
    (p.lastHandshakeError = "version_timeout" ∧
        (p.disconnectReason = "version_timeout" ∨ p.disconnectReason = "partial_message_timeout")) ∨
      (∃ detail, p.lastHandshakeError = "malformed_message:" ++ detail) ∧
        p.disconnectReason = "malformed_message"
  | _ => p.lastHandshakeError = "" ∧ p.disconnectReason = ""

structure Apart (H : Hashlib) (p q : HandshakePeer) (u : Bytes) : Prop where
  synced : Synced H p q u
  network : p.settings.network ≠ q.settings.network
  rebuffed : p.Rebuffed

/-- No node gets beyond the wait for the version. -/
lemma Apart.phase (h : Apart H p q u) :
    (p.stage = .start ∨ p.stage = .awaitVersion ∨ p.stage = .failed) ∧ p.Unanswered := by
  have hphase := h.synced.phase
  cases hstage : p.stage <;> simp only [Phase, hstage] at hphase
  case start | awaitVersion => exact ⟨by simp, hphase.1⟩
  case awaitVerack | complete => exact absurd hphase.1.network h.network
  case failed =>
    obtain ⟨-, haccepted | hunanswered⟩ := hphase
    · exact absurd haccepted.network h.network
    · exact ⟨by simp, hunanswered⟩

/-- The waits end in one of two ways. -/
lemma Apart.outcome (h : Apart H p q u) (houtcome : Outcome H p q u t) :
    t.state.Rebuffed ∧ (p.stage = .start ∧ t.state.stage = .awaitVersion ∨
      p.stage = .awaitVersion ∧ t.state.stage = .failed ∧
        t.state.disconnectReason = "malformed_message") := by
  have hrebuffed := h.rebuffed
  cases houtcome with
  | greet hstage =>
    simp only [Rebuffed, hstage] at hrebuffed
    exact ⟨⟨rfl, hrebuffed⟩, .inl ⟨hstage, rfl⟩⟩
  | takeVersion hstage hgreeted hnetwork => exact absurd hnetwork h.network
  | refuse hstage hnetwork =>
    simp only [Rebuffed, hstage] at hrebuffed
    have hreason : (p.refuse .malformed_message
        ("malformed_message:" ++ Peer.magicError q.settings.network)
        "version_timeout").disconnectReason = "malformed_message" := by
      simp only [refuse, fail, hrebuffed.2]
      rfl
    exact ⟨.inr ⟨⟨Peer.magicError q.settings.network, rfl⟩, hreason⟩, .inr ⟨hstage, rfl, hreason⟩⟩
  | takeVerack hstage hsent =>
    have hphase := h.phase.1
    simp [hstage] at hphase

lemma Apart.giveUp {p' : HandshakePeer} {withinPayload : Bool} (h : Apart H p q u)
    (hgive : p.giveUp withinPayload = some p') : p'.Rebuffed := by
  have hrebuffed := h.rebuffed
  rcases h.phase.1 with hstage | hstage | hstage <;> simp only [HandshakePeer.giveUp, hstage] at hgive
  case inr.inl =>
    simp only [Rebuffed, hstage] at hrebuffed
    cases hgive
    cases withinPayload with
    | true =>
      refine .inl ⟨?_, .inr ?_⟩ <;> simp [fail, hrebuffed, PeerEnd.reason]
      rfl
    | false => refine .inl ⟨?_, .inl ?_⟩ <;> simp [fail, hrebuffed]
  all_goals cases hgive

lemma apart_kept (hdigest : ∀ data, 4 ≤ (H.hash256 data).length) : Kept (Lossy H) (Apart H) where
  reader := by
    intro p q u v t hp hq hmove
    obtain ⟨sent, hsends, -⟩ := Lossy.sends hdigest hp.synced hq.synced hmove
    refine ⟨Lossy.reader hdigest hp.synced hq.synced hmove, by rw [hsends.settings]; exact hp.network, ?_⟩
    rcases hmove with ⟨cuts, hturn⟩ | ⟨withinPayload, p', hgive, rfl⟩
    · exact (hp.outcome (turn_outcome hdigest hp.synced hq.synced hturn)).1
    · exact hp.giveUp hgive
  writer := by
    intro p q u v t hp hq hmove
    obtain ⟨sent, hsends, -⟩ := Lossy.sends hdigest hp.synced hq.synced hmove
    refine ⟨(synced_kept hdigest).writer hp.synced hq.synced hmove, ?_, hq.rebuffed⟩
    rw [hsends.settings]
    exact hq.network

/-- Where nothing is given up, it is the stream of the other node that ends a wait. -/
structure Parting (H : Hashlib) (p q : HandshakePeer) (u : Bytes) : Prop where
  apart : Apart H p q u
  reason : p.stage = .failed → p.disconnectReason = "malformed_message"

/-- The turns that are left where the networks differ. -/
def turnsToPart (p : HandshakePeer) : ℕ :=
  match p.stage with
  | .start => 2
  | .awaitVersion => 1
  | .awaitVerack | .complete | .failed | .raised _ => 0

lemma parting_kept (hdigest : ∀ data, 4 ≤ (H.hash256 data).length) :
    Kept (Lossless H) (Parting H) where
  reader := by
    intro p q u v t hp hq hmove
    refine ⟨(apart_kept hdigest).reader hp.apart hq.apart (.inl hmove), ?_⟩
    obtain ⟨cuts, hturn⟩ := hmove
    have houtcome := turn_outcome hdigest hp.apart.synced hq.apart.synced hturn
    rcases (hp.apart.outcome houtcome).2 with ⟨-, hstage⟩ | ⟨-, -, hreason⟩
    · simp [hstage]
    · exact fun _ => hreason
  writer := by
    intro p q u v t hp hq hmove
    exact ⟨(apart_kept hdigest).writer hp.apart hq.apart (.inl hmove), hq.reason⟩

lemma Parting.turns (hdigest : ∀ data, 4 ≤ (H.hash256 data).length) (hp : Parting H p q u)
    (hq : Parting H q p v) (hmove : Lossless H p u t) : t.state.turnsToPart + 1 = p.turnsToPart := by
  obtain ⟨cuts, hturn⟩ := hmove
  have houtcome := turn_outcome hdigest hp.apart.synced hq.apart.synced hturn
  rcases (hp.apart.outcome houtcome).2 with ⟨hstage, hstage'⟩ | ⟨hstage, hstage', -⟩
  · simp [turnsToPart, hstage, hstage']
  · simp [turnsToPart, hstage, hstage']

/-- Unless a node has failed, it or the other one can take a turn. -/
lemma failed_or_turn (hdigest : ∀ data, 4 ≤ (H.hash256 data).length) (hp : Parting H p q u)
    (hq : Parting H q p v) :
    p.stage = .failed ∨ (∃ t, Lossless H p u t) ∨ ∃ t, Lossless H q v t := by
  have hconf := hp.apart.synced.configured
  have hphase := hp.apart.synced.phase
  rcases hp.apart.phase.1 with hstage | hstage | hstage
  · exact .inr (.inl ⟨_, fun _ => 0, turn_start hconf hstage⟩)
  · simp only [Phase, hstage] at hphase
    obtain ⟨-, rfl⟩ := hphase
    by_cases hgreeted : q.stage = .start
    · exact .inr (.inr ⟨_, fun _ => 0, turn_start hq.apart.synced.configured hgreeted⟩)
    · exact .inr (.inl ⟨_, fun _ => 0, turn_other_network hdigest hconf hq.apart.synced.configured
        hstage hgreeted hp.apart.network⟩)
  · exact .inl hstage

section other_network
variable (hdigest : ∀ data, 4 ≤ (H.hash256 data).length) (hfresh : Fresh l₀)
  (hnetwork : (l₀.state .caller).settings.network ≠ (l₀.state .callee).settings.network)
include hfresh hnetwork

omit hdigest in
lemma Fresh.parting : Holds (Parting H) l₀ := by
  intro s
  refine ⟨⟨hfresh.holds s, ?_, ?_⟩, by simp [hfresh.start s]⟩
  · cases s with
    | caller => exact hnetwork
    | callee => exact hnetwork.symm
  · simp only [Rebuffed, hfresh.start s, hfresh.noReason s]

include hdigest

lemma turnsToPart_eq (hrun : Run (Lossless H) l₀ n l) : n + total turnsToPart l = 4 := by
  have hturns : n + total turnsToPart l = total turnsToPart l₀ :=
    (parting_kept hdigest).turns_le (Parting.turns hdigest) (hfresh.parting hnetwork) hrun
  rw [hturns]
  simp [total, turnsToPart, hfresh.start]

lemma exists_step_to_part (hrun : Run (Lossless H) l₀ n l) (hlt : n < 4) :
    ∃ l', Step (Lossless H) l l' := by
  have hholds := (parting_kept hdigest).run (hfresh.parting hnetwork) hrun
  have hcount := turnsToPart_eq hdigest hfresh hnetwork hrun
  rcases exists_step_or (P := fun p : HandshakePeer => p.stage = .failed) (fun s => by
    have hother := hholds s.other
    rw [Side.other_other] at hother
    exact failed_or_turn hdigest (hholds s) hother) with hstep | hfailed
  · exact hstep
  · simp only [total, turnsToPart, hfailed] at hcount
    omega

end other_network

/-! Two nodes of the test network for developers, and one of the main network. -/
namespace HandshakeExample

def caller : HandshakePeer := configureHandshake .regtest 7 1700000000 "node-a" 0 "" (some 2000000) (some 1)
def callee : HandshakePeer := configureHandshake .regtest 9 1700000001 "node-b" 0 "" (some 2000000) (some 1)
def stranger : HandshakePeer := configureHandshake .mainnet 9 1700000001 "node-b" 0 "" (some 2000000) (some 1)

def digests : List (Bytes × Bytes) :=
  [(caller.greeting.serialize, beBytes 32 0x506e03abdfa2c4a459817f05141fbe9185bea96480531732c9ea655bf32f4479),
    (beBytes 32 0x506e03abdfa2c4a459817f05141fbe9185bea96480531732c9ea655bf32f4479, beBytes 32 0x3a0741d787637176f7f0557610a3273f03cd0c172799244ee0efb9397735c482),
    (callee.greeting.serialize, beBytes 32 0x8e7d6e833482e47a57c27baf83c898d1951a6832c65f8bbd71cc7e4725228fa0),
    (beBytes 32 0x8e7d6e833482e47a57c27baf83c898d1951a6832c65f8bbd71cc7e4725228fa0, beBytes 32 0x2f9dd5733f7fb751f98423df07444e3bc490d5ae4367e07bff04446350dc2b35),
    (stranger.greeting.serialize, beBytes 32 0x4a3b30d6ccf5bf8adef7480e98ff8c0631401ddf6da887e93d32e54a2072f3e1),
    (beBytes 32 0x4a3b30d6ccf5bf8adef7480e98ff8c0631401ddf6da887e93d32e54a2072f3e1, beBytes 32 0x03dfdbb0c7a3b4e22256fdc0b2352f602be1b2981aca2e073bbaa540e30ed888),
    ([], beBytes 32 0xe3b0c44298fc1c149afbf4c8996fb92427ae41e4649b934ca495991b7852b855),
    (beBytes 32 0xe3b0c44298fc1c149afbf4c8996fb92427ae41e4649b934ca495991b7852b855, beBytes 32 0x5df6e0e2761359d30a8275058e299fcc0381534545f55cf43e41983f5d4c9456),
    (sendcmpctMessage.2, beBytes 32 0x46f8ec5a439c92e1df8299e1a4432a7ee172d8496b5e33e0a35a7b67163371b5),
    (beBytes 32 0x46f8ec5a439c92e1df8299e1a4432a7ee172d8496b5e33e0a35a7b67163371b5, beBytes 32 0x2d13cb02123c1525569098d8aa8720f4910fd2f5af190e3e32cca08ef6fdfc37)]

/-- 32 bytes on every input. -/
def crypto : Hashlib where
  sha256 data := ((digests.lookup data).getD [] ++ zeroHash).take 32
  ripemd160 _ := []
  sha1 _ := []

lemma length_sha256 (data : Bytes) : (crypto.sha256 data).length = 32 := by
  simp [crypto, zeroHash]

/-- The caller before its first turn, with another node. -/
def link (callee : HandshakePeer) : Link HandshakePeer UInt8 where
  state
    | .caller => caller
    | .callee => callee
  unread _ := []

/-- The texts of a node that greets with its defaults. -/
lemma configured_of {p : HandshakePeer}
    (htexts : ∀ text ∈ [p.greeting.userAgent, p.greeting.network, p.greeting.nodeId,
      p.greeting.bestBlockHash], (Serializer.encodeUtf8 text).length < 2 ^ 64)
    (hchecks : p.settings.minReadProgressBytes ≤ 1 ∧ 1024 ≤ p.settings.maxPayloadSize ∧
      p.handshake.expectedNetwork = p.settings.network.name ∧
      p.greeting.serialize.length ≤ 1024 ∧ p.closed = false) : p.Configured := by
  obtain ⟨hmin, hmax, hnetwork, hsize, hopened⟩ := hchecks
  refine ⟨hmin, hmax, hnetwork, ⟨rfl, rfl, ?_, ?_, ?_, ?_⟩, hsize, hopened⟩
  all_goals exact htexts _ (by simp)

lemma configured_caller : caller.Configured := configured_of (by decide +kernel) (by decide +kernel)
lemma configured_callee : callee.Configured := configured_of (by decide +kernel) (by decide +kernel)
lemma configured_stranger : stranger.Configured := configured_of (by decide +kernel) (by decide +kernel)

lemma fresh_link {other : HandshakePeer} (hconfigured : other.Configured) (hstart : other.stage = .start)
    (hunanswered : other.Unanswered) (hreason : other.disconnectReason = "") : Fresh (link other) where
  configured s := by
    cases s with
    | caller => exact configured_caller
    | callee => exact hconfigured
  start s := by
    cases s with
    | caller => rfl
    | callee => exact hstart
  unanswered s := by
    cases s with
    | caller => exact ⟨rfl, rfl, rfl⟩
    | callee => exact hunanswered
  noReason s := by
    cases s with
    | caller => rfl
    | callee => exact hreason
  unread _ := rfl

lemma fresh_callee : Fresh (link callee) := fresh_link configured_callee rfl ⟨rfl, rfl, rfl⟩ rfl
lemma fresh_stranger : Fresh (link stranger) := fresh_link configured_stranger rfl ⟨rfl, rfl, rfl⟩ rfl

lemma exists_run_six : ∃ l, Run (Lossless crypto) (link callee) 6 l := by
  refine exists_run ?_
  intro n l hrun hlt
  exact exists_step_of_lt (crypto.four_le_hash256 length_sha256) fresh_callee rfl hrun hlt

lemma complete_six {l : Link HandshakePeer UInt8} (hrun : Run (Lossless crypto) (link callee) 6 l)
    (s : Side) : (l.state s).stage = .complete := by
  have hdigest := crypto.four_le_hash256 length_sha256
  have hholds := (agreeing_kept hdigest).run (fresh_callee.agreeing rfl) hrun
  have hcount := turnsLeft_eq hdigest fresh_callee rfl hrun
  rw [total_eq _ _ s] at hcount
  exact (hholds s).turnsLeft_eq_zero (by omega)

end HandshakeExample

/-- Whatever is given up and in whatever order the nodes take their turns, a node that has completed
the handshake is on the network of the other one and holds its version, and the other one has
accepted the version of this node. -/
theorem handshake_agreement (hlength : ∀ data, (H.sha256 data).length = 32) (hfresh : Fresh l₀)
    (hrun : Run (Lossy H) l₀ n l) (s : Side) :
    ((l.state s).handshake.isComplete = true ↔ (l.state s).stage = .complete) ∧
      ((l.state s).stage = .complete →
        (l₀.state s).settings.network = (l₀.state s.other).settings.network ∧
          (l.state s).version = some (l₀.state s.other).greeting ∧
          (l.state s.other).handshake.remoteVersion = some (l₀.state s).greeting ∧
          (l.state s.other).handshake.verackSent = true) := by
  have hdigest := H.four_le_hash256 hlength
  have hsynced := Run.synced hdigest hfresh hrun
  have hphase := (hsynced s).phase
  refine ⟨hphase.isComplete_iff, ?_⟩
  intro hstage
  simp only [Phase, hstage] at hphase
  obtain ⟨haccepted, -, hversion, hsent, -⟩ := hphase
  have hother := (hsynced s.other).phase
  rw [Side.other_other] at hother
  have hnetwork := haccepted.network
  rw [Run.settings hdigest hfresh hrun, Run.settings hdigest hfresh hrun] at hnetwork
  refine ⟨hnetwork, ?_, ?_, hsent⟩
  · rw [hversion, haccepted.remoteVersion, Run.greeting hdigest hfresh hrun]
  · rw [(hother.accepted hsent).remoteVersion, Run.greeting hdigest hfresh hrun]

open HandshakeExample in
/-- After six turns the caller holds the version of the callee, which has accepted it. -/
theorem handshake_agreement_regtest :
    ∃ l, Run (Lossless crypto) (link callee) 6 l ∧ (l.state .caller).version = some callee.greeting ∧
      (l.state .callee).handshake.remoteVersion = some caller.greeting := by
  obtain ⟨l, hrun⟩ := exists_run_six
  have hagree := (handshake_agreement length_sha256 fresh_callee (hrun.mono fun _ _ _ => .inl)
    .caller).2 (complete_six hrun .caller)
  exact ⟨l, hrun, hagree.2.1, hagree.2.2.1⟩

/-- Two nodes of one network that give nothing up are never stuck before both have completed the
handshake. They take six turns in all, no node fails, and the loop that each of them starts then
finds what the other one has sent last. -/
theorem handshake_completes (hlength : ∀ data, (H.sha256 data).length = 32) (hfresh : Fresh l₀)
    (hnetwork : (l₀.state .caller).settings.network = (l₀.state .callee).settings.network)
    (hrun : Run (Lossless H) l₀ n l) :
    n ≤ 6 ∧ (n < 6 → ∃ l', Step (Lossless H) l l') ∧
      (∀ s, (l.state s).stage ≠ .failed ∧ ∀ e, (l.state s).stage ≠ .raised e) ∧
      (n = 6 → ∀ s, (l.state s).stage = .complete ∧ ∀ cuts,
        Peer.messages H (l.state s).settings ⟨l.unread s, cuts⟩ = [sendcmpctMessage]) := by
  have hdigest := H.four_le_hash256 hlength
  have hholds := (agreeing_kept hdigest).run (hfresh.agreeing hnetwork) hrun
  have hcount := turnsLeft_eq hdigest hfresh hnetwork hrun
  refine ⟨by omega, exists_step_of_lt hdigest hfresh hnetwork hrun, ?_, ?_⟩
  · intro s
    refine ⟨(hholds s).alive, ?_⟩
    intro e hstage
    have hphase := (hholds s).synced.phase
    simp [Phase, hstage] at hphase
  · intro hlast
    have hcomplete : ∀ s, (l.state s).stage = .complete := by
      intro s
      rw [total_eq _ _ s] at hcount
      exact (hholds s).turnsLeft_eq_zero (by omega)
    intro s
    refine ⟨hcomplete s, ?_⟩
    intro cuts
    have hphase := (hholds s).synced.phase
    have hother := (hholds s.other).synced.phase
    simp only [Phase, hcomplete] at hphase hother
    obtain ⟨haccepted, -, -, hsent, hunread⟩ := hphase
    rw [sentBy_of_greeted haccepted.greeted, hsent, hother.2.1, ← haccepted.network] at hunread
    rw [hunread]
    exact messages_sendcmpct hdigest (hholds s).synced.configured cuts

open HandshakeExample in
theorem handshake_completes_regtest :
    ∃ l, Run (Lossless crypto) (link callee) 6 l ∧ ∀ s, (l.state s).stage = .complete ∧ ∀ cuts,
      Peer.messages crypto (l.state s).settings ⟨l.unread s, cuts⟩ = [sendcmpctMessage] := by
  obtain ⟨l, hrun⟩ := exists_run_six
  exact ⟨l, hrun, (handshake_completes length_sha256 fresh_callee rfl hrun).2.2.2 rfl⟩

/-- Nodes of different networks never accept each other: no node gets to an answer, and none finds
out which network the other one is on. Where nothing is given up, both have failed after four turns
on a message that they cannot read. -/
theorem handshake_wrong_network (hlength : ∀ data, (H.sha256 data).length = 32) (hfresh : Fresh l₀)
    (hnetwork : (l₀.state .caller).settings.network ≠ (l₀.state .callee).settings.network) :
    (∀ n l, Run (Lossy H) l₀ n l → ∀ s,
      ((l.state s).stage = .start ∨ (l.state s).stage = .awaitVersion ∨ (l.state s).stage = .failed) ∧
        (l.state s).Unanswered ∧ (l.state s).Rebuffed) ∧
      ∀ n l, Run (Lossless H) l₀ n l →
        n ≤ 4 ∧ (n < 4 → ∃ l', Step (Lossless H) l l') ∧
          (n = 4 → ∀ s, (l.state s).stage = .failed ∧
            (l.state s).disconnectReason = "malformed_message") := by
  have hdigest := H.four_le_hash256 hlength
  have hstart : Holds (Parting H) l₀ := hfresh.parting hnetwork
  constructor
  · intro n l hrun s
    have hholds := (apart_kept hdigest).run (fun s => (hstart s).apart) hrun
    exact ⟨(hholds s).phase.1, (hholds s).phase.2, (hholds s).rebuffed⟩
  · intro n l hrun
    have hholds := (parting_kept hdigest).run hstart hrun
    have hcount := turnsToPart_eq hdigest hfresh hnetwork hrun
    refine ⟨by omega, exists_step_to_part hdigest hfresh hnetwork hrun, ?_⟩
    intro hlast s
    have hfailed : (l.state s).stage = .failed := by
      rw [total_eq _ _ s] at hcount
      have hzero : (l.state s).turnsToPart = 0 := by omega
      rcases (hholds s).apart.phase.1 with hstage | hstage | hstage
      · simp [turnsToPart, hstage] at hzero
      · simp [turnsToPart, hstage] at hzero
      · exact hstage
    exact ⟨hfailed, (hholds s).reason hfailed⟩

open HandshakeExample in
theorem handshake_wrong_network_mainnet :
    (∀ n l, Run (Lossy crypto) (link stranger) n l → ∀ s,
      ((l.state s).stage = .start ∨ (l.state s).stage = .awaitVersion ∨ (l.state s).stage = .failed) ∧
        (l.state s).Unanswered ∧ (l.state s).Rebuffed) ∧
      ∀ n l, Run (Lossless crypto) (link stranger) n l →
        n ≤ 4 ∧ (n < 4 → ∃ l', Step (Lossless crypto) l l') ∧
          (n = 4 → ∀ s, (l.state s).stage = .failed ∧
            (l.state s).disconnectReason = "malformed_message") :=
  handshake_wrong_network length_sha256 fresh_stranger (by decide)

end HandshakePeer
end BerzCoin
