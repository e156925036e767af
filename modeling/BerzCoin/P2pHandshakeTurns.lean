import BerzCoin.P2pHandshake

/-! A turn of the handshake where both directions are in step. -/
namespace BerzCoin
open DuplexLink ChunkedReader

lemma magicBytes_inj {network network' : Network} (h : magicBytes network = magicBytes network') :
    network = network' := by
  revert h
  cases network <;> cases network' <;> decide

@[simp] lemma orText_self_empty (a : String) : orText a "" = a := by
  unfold orText
  split_ifs with h
  · exact h.symm
  · rfl

@[simp] lemma orText_empty (b : String) : orText "" b = b := if_pos rfl

lemma Hashlib.four_le_hash256 (H : Hashlib) (hlength : ∀ data, (H.sha256 data).length = 32)
    (data : Bytes) : 4 ≤ (H.hash256 data).length := by
  rw [Hashlib.hash256, hlength]
  omega

namespace Peer
variable {H : Hashlib} {settings : PeerSettings} {network : Network} {command : Text}
  {payload rest : Bytes} {cuts : ℕ → ℕ}

/-- A whole payload at the front of the stream is read. -/
lemma readExactlyWithProgress_front (hmin : settings.minReadProgressBytes ≤ 1) :
    ∃ cuts', readExactlyWithProgress settings.minReadProgressBytes payload.length
      ⟨payload ++ rest, cuts⟩ = (some payload, ⟨rest, cuts'⟩) := by
  obtain ⟨cuts', hreads⟩ := Option.isSome_iff_exists.1
    (@payloadReads_of_one payload.length settings.minReadProgressBytes rest.length payload.length hmin cuts)
  have hread := @readRounds_within settings.minReadProgressBytes _ _ payload.length payload.length
    [] ⟨payload ++ rest, cuts⟩ cuts' (Nat.le_refl _) (Nat.zero_add _) List.length_append hreads
  rw [List.take_left, List.drop_left, List.nil_append] at hread
  exact ⟨cuts', hread⟩

/-- A message of the own network at the front of the stream. -/
lemma readMessage_front (hmin : settings.minReadProgressBytes ≤ 1)
    (hm : Deliverable H settings (command, payload)) (hlength : payload.length < 2 ^ 32) :
    readMessage H settings
        ⟨MessageCodec.envelope H settings.network command payload ++ (payload ++ rest), cuts⟩ =
      .message command payload rest := by
  have hsize : ¬ settings.maxPayloadSize < payload.length := Nat.not_lt.2 hm.payload
  have hdecode := MessageCodec.decode_encode settings.network hm.digest hlength hm.fitsField []
  obtain ⟨cuts', hread⟩ := @readExactlyWithProgress_front settings payload rest cuts hmin
  rw [List.append_nil] at hdecode
  rw [readMessage, readExactly_front (MessageCodec.envelope_length _ _ hm.digest)]
  simp only [MessageCodec.envelope_payloadLength hlength, if_neg hsize, hread, hdecode]
  rw [if_neg (not_not.2 hm.command)]

/-- The text of the error on the magic bytes of a network. -/
def magicError (network : Network) : String := "Invalid magic bytes: " ++ hex (magicBytes network)

lemma deserialize_other_network (hnetwork : settings.network ≠ network) (data : Bytes) :
    MessageHeader.deserialize H settings.network (magicBytes network ++ data) =
      .error (.valueError (magicError network)) := by
  have hmagic := slice_append_right [] (magicBytes network) data
  simp only [List.nil_append, List.length_nil, MessageCodec.magicBytes_length] at hmagic
  have hne : magicBytes network ≠ magicBytes settings.network :=
    fun heq ↦ hnetwork (magicBytes_inj heq).symm
  rw [MessageHeader.deserialize, hmagic, if_pos hne]
  rfl

lemma decode_other_network (hnetwork : settings.network ≠ network) (data : Bytes) :
    MessageCodec.decode H settings.network (magicBytes network ++ data) =
      .error (.valueError (magicError network)) := by
  rw [MessageCodec.decode, deserialize_other_network hnetwork]

/-- A message of another network is refused, whatever it says. -/
lemma readMessage_other_network (hmin : settings.minReadProgressBytes ≤ 1)
    (hnetwork : settings.network ≠ network) (hm : Deliverable H settings (command, payload))
    (hlength : payload.length < 2 ^ 32) :
    readMessage H settings
        ⟨MessageCodec.envelope H network command payload ++ (payload ++ rest), cuts⟩ =
      .refused .malformed_message ("malformed_message:" ++ magicError network) := by
  have hsize : ¬ settings.maxPayloadSize < payload.length := Nat.not_lt.2 hm.payload
  obtain ⟨cuts', hread⟩ := @readExactlyWithProgress_front settings payload rest cuts hmin
  rw [readMessage, readExactly_front (MessageCodec.envelope_length _ _ hm.digest)]
  simp only [MessageCodec.envelope_payloadLength hlength, if_neg hsize, hread]
  rw [MessageCodec.envelope, List.append_assoc, decode_other_network hnetwork]
  rfl

end Peer

namespace HandshakePeer
variable {H : Hashlib} {p q : HandshakePeer} {u v : Bytes} {t : Turn HandshakePeer UInt8}

/-- A node as `configure_handshake` leaves it where a read makes progress with one byte (the default),
with a version message of at most 1024 bytes, which every node takes. -/
structure Configured (p : HandshakePeer) : Prop where
  minRead : p.settings.minReadProgressBytes ≤ 1
  maxPayload : 1024 ≤ p.settings.maxPayloadSize
  expectedNetwork : p.handshake.expectedNetwork = p.settings.network.name
  greeting : p.greeting.InRange
  size : p.greeting.serialize.length ≤ 1024
  opened : p.closed = false

def versionMessage (p : HandshakePeer) : Text × Bytes := ("version".toList, p.greeting.serialize)

/-- Stated by `delta`: to unfold the message by its equation makes Lean decode the text. -/
lemma versionMessage_eq (p : HandshakePeer) :
    p.versionMessage = ("version".toList, p.greeting.serialize) := by
  delta versionMessage
  rfl
def verackMessage : Text × Bytes := ("verack".toList, [])
def sendcmpctMessage : Text × Bytes := ("sendcmpct".toList, SendCmpctMessage.serialize ⟨true, 1⟩)

/-- What an end has written so far. -/
def sentBy (p : HandshakePeer) : List (Text × Bytes) :=
  if p.stage = .start then []
  else p.versionMessage :: (if p.handshake.verackSent then [verackMessage] else []) ++
    if p.handshake.verackReceived then [sendcmpctMessage] else []

/-- The bytes of messages. -/
def wire (H : Hashlib) (network : Network) (sent : List (Text × Bytes)) : Bytes :=
  sent.flatMap fun m => MessageCodec.envelope H network m.1 m.2 ++ m.2

/-- An end that has taken the version of the other one. -/
structure Accepted (p q : HandshakePeer) : Prop where
  network : p.settings.network = q.settings.network
  remoteVersion : p.handshake.remoteVersion = some q.greeting
  verackSent : p.handshake.verackSent = true
  greeted : q.stage ≠ .start

/-- An end that still waits for the version of the other one. -/
structure Unanswered (p : HandshakePeer) : Prop where
  remoteVersion : p.handshake.remoteVersion = none
  verackSent : p.handshake.verackSent = false
  verackReceived : p.handshake.verackReceived = false

/-- What an end has seen of the other one, and what it has still to read of it. -/
def Phase (H : Hashlib) (p q : HandshakePeer) (u : Bytes) : Prop :=
  match p.stage with
  | .start | .awaitVersion => p.Unanswered ∧ u = wire H q.settings.network q.sentBy
  | .awaitVerack =>
    p.Accepted q ∧ p.handshake.verackReceived = false ∧ u = wire H q.settings.network q.sentBy.tail
  | .complete =>
    p.Accepted q ∧ p.handshake.verackReceived = true ∧ p.version = p.handshake.remoteVersion ∧
      q.handshake.verackSent = true ∧ u = wire H q.settings.network q.sentBy.tail.tail
  | .failed => p.handshake.verackReceived = false ∧ (p.Accepted q ∨ p.Unanswered)
  | .raised _ => False

/-- The invariant of a direction. -/
structure Synced (H : Hashlib) (p q : HandshakePeer) (u : Bytes) : Prop where
  configured : p.Configured
  phase : Phase H p q u

/-! The turns one by one. -/

/-- The end after its greeting. -/
def greeted (p : HandshakePeer) : HandshakePeer :=
  { p with stage := .awaitVersion, lastHandshakeError := "" }

/-- The end after a version that it accepts. -/
def accepting (p : HandshakePeer) (remoteVersion : VersionMessage) : HandshakePeer :=
  { p with
    handshake := { p.handshake with remoteVersion := some remoteVersion, verackSent := true }
    stage := .awaitVerack
    relayTxs := remoteVersion.relay }

/-- The end after the verack. -/
def completing (p : HandshakePeer) : HandshakePeer :=
  { p with
    handshake := p.handshake.processVerack
    stage := .complete
    version := p.handshake.remoteVersion }

/-- What a turn can do where both directions are in step. -/
inductive Outcome (H : Hashlib) (p q : HandshakePeer) (u : Bytes) : Turn HandshakePeer UInt8 → Prop
  | greet (hstage : p.stage = .start) :
    Outcome H p q u ⟨p.greeted, u, wire H p.settings.network [p.versionMessage]⟩
  | takeVersion (hstage : p.stage = .awaitVersion) (hgreeted : q.stage ≠ .start)
      (hnetwork : p.settings.network = q.settings.network) :
    Outcome H p q u ⟨p.accepting q.greeting, wire H q.settings.network q.sentBy.tail,
      wire H p.settings.network [verackMessage]⟩
  | refuse (hstage : p.stage = .awaitVersion) (hnetwork : p.settings.network ≠ q.settings.network) :
    Outcome H p q u ⟨p.refuse .malformed_message
      ("malformed_message:" ++ Peer.magicError q.settings.network) "version_timeout", [], []⟩
  | takeVerack (hstage : p.stage = .awaitVerack) (hsent : q.handshake.verackSent = true) :
    Outcome H p q u ⟨p.completing, wire H q.settings.network q.sentBy.tail.tail,
      wire H p.settings.network [sendcmpctMessage]⟩

lemma wire_cons (network : Network) (m : Text × Bytes) (sent : List (Text × Bytes)) :
    wire H network (m :: sent) =
      MessageCodec.envelope H network m.1 m.2 ++ (m.2 ++ wire H network sent) := by
  rw [wire, List.flatMap_cons, List.append_assoc, wire]

lemma wire_append (network : Network) (sent sent' : List (Text × Bytes)) :
    wire H network (sent ++ sent') = wire H network sent ++ wire H network sent' :=
  List.flatMap_append

lemma encode_wire {m : Text × Bytes} {network : Network} (hlength : m.2.length < 2 ^ 32) :
    MessageCodec.encode H network m.1 m.2 = .ok (wire H network [m]) := by
  refine (if_pos hlength).trans ?_
  simp [wire, MessageCodec.envelope, MessageHeader.new]

/-- What an open end sends is written. -/
lemma sendMessage_eq {m : Text × Bytes} (hopened : p.closed = false) (hlength : m.2.length < 2 ^ 32) :
    p.sendMessage H m.1 m.2 = (p, wire H p.settings.network [m]) := by
  rw [sendMessage, hopened, encode_wire hlength]

lemma Configured.length_lt (h : p.Configured) : p.greeting.serialize.length < 2 ^ 32 := by
  have hsize := h.size
  omega

lemma processVersion_greeting (hp : p.Configured) (hq : q.Configured)
    (hnetwork : p.settings.network = q.settings.network) :
    p.handshake.processVersion q.greeting = ({ p.handshake with remoteVersion := some q.greeting }, none) := by
  have hname : q.greeting.network = p.handshake.expectedNetwork := by
    rw [hp.expectedNetwork, hnetwork, ← hq.expectedNetwork]
    rfl
  have hversion : q.greeting.version = VersionHandshake.PROTOCOL_VERSION := rfl
  rw [VersionHandshake.processVersion, VersionHandshake.versionError, hname, hversion,
    if_neg (fun h => h.2.2 rfl), if_neg (by decide)]

/-- The version of the other end is accepted. -/
lemma onVersion_greeting (hp : p.Configured) (hq : q.Configured)
    (hnetwork : p.settings.network = q.settings.network) :
    p.onVersion H q.greeting.serialize =
      (p.accepting q.greeting, wire H p.settings.network [verackMessage]) := by
  have hsend := @sendMessage_eq H (p.accepting q.greeting) verackMessage hp.opened (by decide)
  rw [onVersion, (VersionMessage.deserialize_decodes hq.greeting).last.whole]
  simp only [processVersion_greeting hp hq hnetwork]
  exact hsend

lemma onVerack_eq (hp : p.Configured) :
    p.onVerack H = (p.completing, wire H p.settings.network [sendcmpctMessage]) :=
  @sendMessage_eq H p.completing sendcmpctMessage hp.opened (by decide)

lemma sentBy_of_greeted (h : q.stage ≠ .start) :
    q.sentBy = q.versionMessage :: ((if q.handshake.verackSent then [verackMessage] else []) ++
      if q.handshake.verackReceived then [sendcmpctMessage] else []) := by
  rw [sentBy, if_neg h, List.cons_append]

/-- A verack comes before a sendcmpct. -/
lemma Phase.verackSent (h : Phase H p q u) (hreceived : p.handshake.verackReceived = true) :
    p.handshake.verackSent = true := by
  cases hstage : p.stage <;> simp only [Phase, hstage] at h
  case start => simp [h.1.verackReceived] at hreceived
  case awaitVersion => simp [h.1.verackReceived] at hreceived
  case awaitVerack => exact h.1.verackSent
  case complete => exact h.1.verackSent
  case failed => simp [h.1] at hreceived

lemma turn_start {cuts : ℕ → ℕ} (hp : p.Configured) (hstage : p.stage = .start) :
    p.turn H cuts u = some ⟨p.greeted, u, wire H p.settings.network [p.versionMessage]⟩ := by
  have hsend := @sendMessage_eq H p.greeted p.versionMessage hp.opened hp.length_lt
  simp only [versionMessage_eq, greeted] at hsend
  simp only [turn, hstage, hsend]
  rfl

/-- An end sends its verack where it has accepted the other one. -/
lemma Phase.accepted (h : Phase H p q u) (hsent : p.handshake.verackSent = true) : p.Accepted q := by
  cases hstage : p.stage <;> simp only [Phase, hstage] at h
  case start | awaitVersion => simp [h.1.verackSent] at hsent
  case awaitVerack | complete => exact h.1
  case failed =>
    obtain ⟨-, haccepted | hunanswered⟩ := h
    · exact haccepted
    · simp [hunanswered.verackSent] at hsent

section await
variable {m : Text × Bytes} {sent : List (Text × Bytes)} {network : Network} {timeout : String}
  {cuts : ℕ → ℕ} {follow : HandshakePeer → Bytes → HandshakePeer × Bytes}

/-- The message that is waited for stands at the front. -/
lemma await_wire (hp : p.Configured) (hm : Peer.Deliverable H p.settings m)
    (hlength : m.2.length < 2 ^ 32) (hnetwork : p.settings.network = network) :
    p.await H m.1 timeout cuts (wire H network (m :: sent)) follow =
      some ⟨(follow p m.2).1, wire H network sent, (follow p m.2).2⟩ := by
  subst hnetwork
  rw [await, wire_cons, Peer.readMessage_front hp.minRead hm hlength]
  exact if_pos rfl

lemma await_other_network (hp : p.Configured) (hm : Peer.Deliverable H p.settings m)
    (hlength : m.2.length < 2 ^ 32) (hnetwork : p.settings.network ≠ network) :
    p.await H m.1 timeout cuts (wire H network (m :: sent)) follow =
      some ⟨p.refuse .malformed_message ("malformed_message:" ++ Peer.magicError network) timeout,
        [], []⟩ := by
  rw [await, wire_cons, Peer.readMessage_other_network hp.minRead hnetwork hm hlength]

end await

section turns
variable {cuts : ℕ → ℕ} (hdigest : ∀ data, 4 ≤ (H.hash256 data).length)
include hdigest

lemma deliverable_version (hp : p.Configured) (hq : q.Configured) :
    Peer.Deliverable H p.settings q.versionMessage where
  command := (by decide : "version".toList ∈ VALID_COMMANDS)
  fits := (by decide : "version".toList.length ≤ 12)
  payload := hq.size.trans hp.maxPayload
  digest := hdigest _

lemma deliverable_verack (settings : PeerSettings) : Peer.Deliverable H settings verackMessage where
  command := (by decide : "verack".toList ∈ VALID_COMMANDS)
  fits := (by decide : "verack".toList.length ≤ 12)
  payload := Nat.zero_le _
  digest := hdigest _

lemma deliverable_sendcmpct (hp : p.Configured) : Peer.Deliverable H p.settings sendcmpctMessage where
  command := (by decide : "sendcmpct".toList ∈ VALID_COMMANDS)
  fits := (by decide : "sendcmpct".toList.length ≤ 12)
  payload := by
    have hmax := hp.maxPayload
    have hlength : sendcmpctMessage.2.length = 9 := by decide
    omega
  digest := hdigest _

/-- The first message of the other end is its version. -/
lemma turn_awaitVersion (hp : p.Configured) (hq : q.Configured) (hstage : p.stage = .awaitVersion)
    (hgreeted : q.stage ≠ .start) (hnetwork : p.settings.network = q.settings.network) :
    p.turn H cuts (wire H q.settings.network q.sentBy) =
      some ⟨p.accepting q.greeting, wire H q.settings.network q.sentBy.tail,
        wire H p.settings.network [verackMessage]⟩ := by
  have hawait := @await_wire H p q.versionMessage q.sentBy.tail q.settings.network "version_timeout"
    cuts (onVersion H) hp (deliverable_version hdigest hp hq) hq.length_lt hnetwork
  have hsent : q.sentBy = q.versionMessage :: q.sentBy.tail := by
    rw [sentBy_of_greeted hgreeted, List.tail_cons]
  simp only [turn, hstage]
  rw [versionMessage_eq, onVersion_greeting hp hq hnetwork] at hawait
  rw [hsent, List.tail_cons, versionMessage_eq, hawait]

lemma turn_other_network (hp : p.Configured) (hq : q.Configured) (hstage : p.stage = .awaitVersion)
    (hgreeted : q.stage ≠ .start) (hnetwork : p.settings.network ≠ q.settings.network) :
    p.turn H cuts (wire H q.settings.network q.sentBy) =
      some ⟨p.refuse .malformed_message ("malformed_message:" ++ Peer.magicError q.settings.network)
        "version_timeout", [], []⟩ := by
  have hawait := @await_other_network H p q.versionMessage q.sentBy.tail q.settings.network
    "version_timeout" cuts (onVersion H) hp (deliverable_version hdigest hp hq) hq.length_lt hnetwork
  have hsent : q.sentBy = q.versionMessage :: q.sentBy.tail := by
    rw [sentBy_of_greeted hgreeted, List.tail_cons]
  simp only [turn, hstage]
  rw [versionMessage_eq] at hawait
  rw [hsent, versionMessage_eq, hawait]

/-- The message after the version is a verack. -/
lemma turn_awaitVerack (hp : p.Configured) (haccepted : p.Accepted q) (hstage : p.stage = .awaitVerack)
    (hverack : q.handshake.verackSent = true) :
    p.turn H cuts (wire H q.settings.network q.sentBy.tail) =
      some ⟨p.completing, wire H q.settings.network q.sentBy.tail.tail,
        wire H p.settings.network [sendcmpctMessage]⟩ := by
  have hawait := @await_wire H p verackMessage q.sentBy.tail.tail q.settings.network "verack_timeout"
    cuts (fun p _ => p.onVerack H) hp (deliverable_verack hdigest _) (by decide) haccepted.network
  have hsent : q.sentBy.tail = verackMessage :: q.sentBy.tail.tail := by
    rw [sentBy_of_greeted haccepted.greeted, hverack]
    rfl
  simp only [turn, hstage]
  rw [onVerack_eq hp] at hawait
  rw [hsent, List.tail_cons, show "verack".toList = verackMessage.1 from rfl, hawait]

/-- Where both directions are in step, a turn does one of four things. -/
lemma turn_outcome (hp : Synced H p q u) (hq : Synced H q p v)
    (hturn : p.turn H cuts u = some t) : Outcome H p q u t := by
  obtain ⟨hconf, hphase⟩ := hp
  cases hstage : p.stage with
  | start =>
    rw [turn_start hconf hstage] at hturn
    cases hturn
    exact .greet hstage
  | awaitVersion =>
    simp only [Phase, hstage] at hphase
    obtain ⟨-, rfl⟩ := hphase
    by_cases hgreeted : q.stage = .start
    · rw [sentBy, if_pos hgreeted] at hturn
      simp only [turn, hstage] at hturn
      cases hturn
    · by_cases hnetwork : p.settings.network = q.settings.network
      · rw [turn_awaitVersion hdigest hconf hq.configured hstage hgreeted hnetwork] at hturn
        cases hturn
        exact .takeVersion hstage hgreeted hnetwork
      · rw [turn_other_network hdigest hconf hq.configured hstage hgreeted hnetwork] at hturn
        cases hturn
        exact .refuse hstage hnetwork
  | awaitVerack =>
    simp only [Phase, hstage] at hphase
    obtain ⟨haccepted, -, rfl⟩ := hphase
    cases hverack : q.handshake.verackSent with
    | true =>
      rw [turn_awaitVerack hdigest hconf haccepted hstage hverack] at hturn
      cases hturn
      exact .takeVerack hstage hverack
    | false =>
      -- nothing but the version has come
      cases hreceived : q.handshake.verackReceived with
      | false =>
        simp only [turn, hstage, sentBy_of_greeted haccepted.greeted, hverack, hreceived] at hturn
        cases hturn
      | true =>
        have hcontra := hq.phase.verackSent hreceived
        rw [hverack] at hcontra
        cases hcontra
  | complete | failed | raised e =>
    simp only [turn, hstage] at hturn
    cases hturn

end turns

/-! Both directions stay in step. -/

/-- An end that leaves the handshake. -/
structure Quits (p p' : HandshakePeer) : Prop where
  stage : p'.stage = .failed
  settings : p'.settings = p.settings
  handshake : p'.handshake = p.handshake
  now : p'.now = p.now
  closed : p'.closed = p.closed
  waiting : p.stage = .awaitVersion ∨ p.stage = .awaitVerack

lemma quits_refuse {why : PeerEnd} {error timeout : String} (h : p.stage = .awaitVersion) :
    p.Quits (p.refuse why error timeout) := ⟨rfl, rfl, rfl, rfl, rfl, .inl h⟩

lemma quits_giveUp {p' : HandshakePeer} {withinPayload : Bool}
    (h : p.giveUp withinPayload = some p') : p.Quits p' := by
  cases hstage : p.stage <;> simp only [giveUp, hstage] at h <;> cases h
  case awaitVersion => cases withinPayload <;> exact ⟨rfl, rfl, rfl, rfl, rfl, .inl hstage⟩
  case awaitVerack => cases withinPayload <;> exact ⟨rfl, rfl, rfl, rfl, rfl, .inr hstage⟩

/-- An end that has sent more messages. -/
structure Sends (p p' : HandshakePeer) (sent : List (Text × Bytes)) : Prop where
  settings : p'.settings = p.settings
  greeting : p'.greeting = p.greeting
  sentBy : p'.sentBy = p.sentBy ++ sent
  greeted : p.stage ≠ .start → p'.stage ≠ .start
  verackSent : p.handshake.verackSent = true → p'.handshake.verackSent = true

lemma Quits.sends {p' : HandshakePeer} (h : p.Quits p') : p.Sends p' [] where
  settings := h.settings
  greeting := by rw [HandshakePeer.greeting, h.handshake, h.now, HandshakePeer.greeting]
  sentBy := by
    have hgreeted : p.stage ≠ .start := by
      rcases h.waiting with hstage | hstage <;> simp [hstage]
    have hgreeting : p'.greeting = p.greeting := by
      rw [HandshakePeer.greeting, h.handshake, h.now, HandshakePeer.greeting]
    rw [sentBy_of_greeted (by simp [h.stage]), sentBy_of_greeted hgreeted, h.handshake, versionMessage_eq,
      hgreeting, versionMessage_eq, List.append_nil]
  greeted := fun _ => by simp [h.stage]
  verackSent := fun hsent => by rw [h.handshake, hsent]

lemma Configured.of_eq {p' : HandshakePeer} (h : p.Configured) (hsettings : p'.settings = p.settings)
    (hgreeting : p'.greeting = p.greeting)
    (hexpected : p'.handshake.expectedNetwork = p.handshake.expectedNetwork)
    (hclosed : p'.closed = p.closed) : p'.Configured where
  minRead := hsettings ▸ h.minRead
  maxPayload := hsettings ▸ h.maxPayload
  expectedNetwork := by rw [hexpected, hsettings, h.expectedNetwork]
  greeting := hgreeting ▸ h.greeting
  size := hgreeting ▸ h.size
  opened := hclosed.trans h.opened

lemma Quits.configured {p' : HandshakePeer} (h : p.Quits p') (hp : p.Configured) : p'.Configured :=
  hp.of_eq h.settings h.sends.greeting (by rw [h.handshake]) h.closed

lemma sentBy_tail_ne_nil (hgreeted : p.stage ≠ .start) (hsent : p.handshake.verackSent = true) :
    p.sentBy.tail ≠ [] := by
  rw [sentBy_of_greeted hgreeted, hsent]
  exact List.cons_ne_nil _ _

lemma sentBy_ne_nil (hgreeted : p.stage ≠ .start) : p.sentBy ≠ [] := by
  rw [sentBy_of_greeted hgreeted]
  exact List.cons_ne_nil _ _

lemma Accepted.sends {p' : HandshakePeer} {sent : List (Text × Bytes)} (h : q.Accepted p)
    (hsends : p.Sends p' sent) : q.Accepted p' where
  network := by rw [h.network, hsends.settings]
  remoteVersion := by rw [h.remoteVersion, hsends.greeting]
  verackSent := h.verackSent
  greeted := hsends.greeted h.greeted

/-- What the writer adds comes after all that the reader has not read. -/
lemma Phase.writer {p' : HandshakePeer} {sent : List (Text × Bytes)} (hq : Phase H q p v)
    (hsends : p.Sends p' sent) : Phase H q p' (v ++ wire H p.settings.network sent) := by
  cases hstage : q.stage <;> simp only [Phase, hstage] at hq ⊢
  case start | awaitVersion =>
    obtain ⟨hunanswered, rfl⟩ := hq
    exact ⟨hunanswered, by rw [hsends.settings, hsends.sentBy, wire_append]⟩
  case awaitVerack =>
    obtain ⟨haccepted, hreceived, rfl⟩ := hq
    refine ⟨haccepted.sends hsends, hreceived, ?_⟩
    rw [hsends.settings, hsends.sentBy, List.tail_append_of_ne_nil (sentBy_ne_nil haccepted.greeted),
      wire_append]
  case complete =>
    obtain ⟨haccepted, hreceived, hversion, hsent, rfl⟩ := hq
    refine ⟨haccepted.sends hsends, hreceived, hversion, hsends.verackSent hsent, ?_⟩
    rw [hsends.settings, hsends.sentBy, List.tail_append_of_ne_nil (sentBy_ne_nil haccepted.greeted),
      List.tail_append_of_ne_nil (sentBy_tail_ne_nil haccepted.greeted hsent), wire_append]
  case failed =>
    obtain ⟨hreceived, haccepted | hunanswered⟩ := hq
    · exact ⟨hreceived, .inl (haccepted.sends hsends)⟩
    · exact ⟨hreceived, .inr hunanswered⟩

lemma Quits.phase {p' : HandshakePeer} (h : p.Quits p') (hp : Phase H p q u) : Phase H p' q v := by
  simp only [Phase, h.stage, h.handshake]
  rcases h.waiting with hstage | hstage <;> simp only [Phase, hstage] at hp
  · exact ⟨hp.1.verackReceived, .inr ⟨by rw [h.handshake, hp.1.remoteVersion],
      by rw [h.handshake, hp.1.verackSent], by rw [h.handshake, hp.1.verackReceived]⟩⟩
  · obtain ⟨haccepted, hreceived, -⟩ := hp
    refine ⟨hreceived, .inl ⟨?_, ?_, ?_, haccepted.greeted⟩⟩
    · rw [h.settings, haccepted.network]
    · rw [h.handshake, haccepted.remoteVersion]
    · rw [h.handshake, haccepted.verackSent]

/-- The reader of a turn stays in step. -/
lemma Outcome.reader (h : Outcome H p q u t) (hp : Synced H p q u) : Synced H t.state q t.rest := by
  obtain ⟨hconf, hphase⟩ := hp
  cases h with
  | greet hstage =>
    simp only [Phase, hstage] at hphase
    obtain ⟨⟨hremote, hverack, hreceived⟩, hunread⟩ := hphase
    exact ⟨hconf.of_eq rfl rfl rfl rfl, ⟨hremote, hverack, hreceived⟩, hunread⟩
  | takeVersion hstage hgreeted hnetwork =>
    simp only [Phase, hstage] at hphase
    exact ⟨hconf.of_eq rfl rfl rfl rfl, ⟨hnetwork, rfl, rfl, hgreeted⟩, hphase.1.verackReceived, rfl⟩
  | refuse hstage hnetwork =>
    have hquits := @quits_refuse p .malformed_message
      ("malformed_message:" ++ Peer.magicError q.settings.network)
      "version_timeout" hstage
    exact ⟨hquits.configured hconf, hquits.phase hphase⟩
  | takeVerack hstage hsent =>
    simp only [Phase, hstage] at hphase
    obtain ⟨⟨hnetwork, hremote, hverack, hgreeted⟩, -⟩ := hphase
    exact ⟨hconf.of_eq rfl rfl rfl rfl, ⟨hnetwork, hremote, hverack, hgreeted⟩, rfl, rfl, hsent, rfl⟩

/-- What a turn writes. -/
lemma Outcome.sends (h : Outcome H p q u t) (hp : Synced H p q u) :
    ∃ sent, p.Sends t.state sent ∧ t.written = wire H p.settings.network sent := by
  obtain ⟨-, hphase⟩ := hp
  cases h with
  | greet hstage =>
    simp only [Phase, hstage] at hphase
    refine ⟨[p.versionMessage], ⟨rfl, rfl, ?_, fun h => absurd hstage h, id⟩, rfl⟩
    rw [sentBy_of_greeted (by simp [greeted]), sentBy, if_pos hstage]
    simp only [greeted, hphase.1.verackSent, hphase.1.verackReceived]
    rfl
  | takeVersion hstage hgreeted hnetwork =>
    simp only [Phase, hstage] at hphase
    refine ⟨[verackMessage], ⟨rfl, rfl, ?_, fun _ => by simp [accepting], fun _ => rfl⟩, rfl⟩
    rw [sentBy_of_greeted (by simp [accepting]), sentBy_of_greeted (q := p) (by simp [hstage])]
    simp only [accepting, hphase.1.verackSent, hphase.1.verackReceived]
    rfl
  | refuse hstage hnetwork => exact ⟨[], (quits_refuse hstage).sends, rfl⟩
  | takeVerack hstage hsent =>
    simp only [Phase, hstage] at hphase
    obtain ⟨haccepted, hreceived, -⟩ := hphase
    refine ⟨[sendcmpctMessage], ⟨rfl, rfl, ?_, fun _ => by simp [completing], id⟩, rfl⟩
    rw [sentBy_of_greeted (by simp [completing]), sentBy_of_greeted (q := p) (by simp [hstage])]
    simp only [completing, VersionHandshake.processVerack, haccepted.verackSent, hreceived]
    rfl

end HandshakePeer
end BerzCoin
